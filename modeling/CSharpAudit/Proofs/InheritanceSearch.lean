import CSharpAudit.Proofs.Inheritance
import Mathlib.Data.List.Perm.Subperm
import Mathlib.Logic.Relation

/-!
# Which circles of base types are found

The search for circles takes the types of a file in turn. From each type that was not looked at
before it goes down the base types and stops at the first circle it meets. The types on the way to
this circle are given up: they count as looked at, though bases of theirs may have been left out. So
a type that was looked at is finished in one of two ways. Either it leads to a circle that was
found, or it leads to no circle at all. This is kept by every step of the search, whatever was given
up before.

It follows that a circle is found whenever there is one. It does not follow that every circle is
found: one that leads to another may be given up on the way to the other.

## Main definitions

* `InheritanceGraph.Leads` — a type is reached along base types
* `InheritanceGraph.IsSimpleCycle` — a cycle on which no type stands twice
* `InheritanceGraph.Settled` — what is known of a type that the search is done with
* `InheritanceGraph.Stands`, `InheritanceGraph.Searched` — before and behind a part of the search
* `InheritanceGraph.searches` — the types that the search starts from, with what it stops at
* `InheritanceGraph.Holds` — a strongly connected component contains a cycle

## Main results

* `InheritanceGraph.searched_search` — a search keeps what is known, and does not run out of depth
* `InheritanceGraph.surveyed_cycles` — what is known of all types of a graph
* `inheritance_cycles_found` — only cycles are found, and one is found if there is one
* `hidden_cycles_lead_to_found` — a component whose cycles are not found leads to one that is found
-/

namespace CSharpAudit

open Relation (ReflTransGen TransGen)

namespace InheritanceGraph

variable {g : InheritanceGraph} {path visited visited' starts rest cycle : List Nat}
  {found : List (List Nat)} {answer : List Nat × Option (List Nat)} {a b id last depth : Nat}

/-! ### Types that lead to others -/

/-- A type is reached from another one along base types. -/
def Leads (g : InheritanceGraph) : Nat → Nat → Prop := ReflTransGen g.Inherits

/-- A type that leads to itself by at least one step. -/
def OnCycle (g : InheritanceGraph) (a : Nat) : Prop := TransGen g.Inherits a a

/-- A type that leads to no cycle. -/
def Clear (g : InheritanceGraph) (a : Nat) : Prop := ∀ b, g.Leads a b → ¬g.OnCycle b

/-- A type that leads to one of some cycles. -/
def LeadsInto (g : InheritanceGraph) (found : List (List Nat)) (a : Nat) : Prop :=
  ∃ c ∈ found, ∃ b ∈ c, g.Leads a b

/-- What is known of a type that a search is done with: it leads to a cycle that was found, or to
none at all. -/
def Settled (g : InheritanceGraph) (found : List (List Nat)) (a : Nat) : Prop :=
  g.LeadsInto found a ∨ g.Clear a

theorem LeadsInto.head (h : g.LeadsInto found b) (hbase : g.Inherits a b) :
    g.LeadsInto found a := by
  obtain ⟨c, hc, d, hd, hleads⟩ := h
  exact ⟨c, hc, d, hd, .head hbase hleads⟩

theorem Settled.mono {found' : List (List Nat)} (h : g.Settled found a) (hsub : found ⊆ found') :
    g.Settled found' a :=
  h.imp_left fun ⟨c, hc, hleads⟩ => ⟨c, hsub hc, hleads⟩

/-- A type leads to no cycle if none of its bases does, for a cycle through the type itself would go
through one of these. -/
theorem clear_of_bases (h : ∀ b, g.Inherits a b → g.Clear b) : g.Clear a := by
  intro d hleads hcycle
  rcases hleads.cases_head with rfl | ⟨b, hbase, hleads⟩
  · obtain ⟨b, hbase, hback⟩ := TransGen.head'_iff.mp hcycle
    exact h b hbase a hback hcycle
  · exact h b hbase d hleads hcycle

theorem settled_of_bases (h : ∀ b ∈ g.bases a, g.Settled found b) : g.Settled found a := by
  by_cases hinto : ∃ b, g.Inherits a b ∧ g.LeadsInto found b
  · obtain ⟨b, hbase, hinto⟩ := hinto
    exact .inl (hinto.head hbase)
  · refine .inr (clear_of_bases fun b hbase => ?_)
    exact (h b (mem_bases.mpr hbase)).resolve_left fun hb => hinto ⟨b, hbase, hb⟩

theorem leads_of_isChain_cons {l : List Nat} (h : (a :: l).IsChain g.Inherits)
    (hb : b ∈ a :: l) : g.Leads a b := by
  induction l generalizing a with
  | nil =>
    obtain rfl := List.mem_singleton.mp hb
    exact .refl
  | cons d l ih =>
    obtain ⟨hstep, htail⟩ := List.isChain_cons_cons.mp h
    rcases List.mem_cons.mp hb with rfl | hb
    · exact .refl
    · exact .head hstep (ih htail hb)

theorem leads_of_isChain_concat {l : List Nat} (h : (l ++ [b]).IsChain g.Inherits)
    (ha : a ∈ l ++ [b]) : g.Leads a b := by
  induction l with
  | nil =>
    obtain rfl := List.mem_singleton.mp ha
    exact .refl
  | cons d l ih =>
    rcases List.mem_cons.mp ha with rfl | ha
    · exact leads_of_isChain_cons h (by simp)
    · exact ih h.tail ha

/-- The types on a cycle lead to each other. -/
theorem IsCycle.leads (h : g.IsCycle cycle) (ha : a ∈ cycle) (hb : b ∈ cycle) : g.Leads a b := by
  obtain ⟨start, between, rfl⟩ := h.closed
  exact (leads_of_isChain_concat (l := start :: between) h.chain ha).trans
    (leads_of_isChain_cons h.chain hb)

theorem IsCycle.onCycle (h : g.IsCycle cycle) (ha : a ∈ cycle) : g.OnCycle a := by
  have hstep : ∃ d ∈ cycle, ∃ e ∈ cycle, g.Inherits d e := by
    obtain ⟨start, between, rfl⟩ := h.closed
    obtain ⟨e, rest, hrest⟩ := List.exists_cons_of_ne_nil
      (List.append_ne_nil_of_right_ne_nil between (List.cons_ne_nil start []))
    rw [hrest] at h ⊢
    exact ⟨start, by simp, e, by simp, (List.isChain_cons_cons.mp h.chain).1⟩
  obtain ⟨d, hd, e, he, hstep⟩ := hstep
  exact (TransGen.head' hstep (h.leads he ha)).trans_right (h.leads ha hd)

/-- A cycle on which no type stands twice, but for the one at which it starts and ends. -/
structure IsSimpleCycle (g : InheritanceGraph) (cycle : List Nat) : Prop extends
    g.IsCycle cycle where
  nodup : cycle.dropLast.Nodup

theorem isSimpleCycle_closeAt (hpath : path.IsChain g.Inherits) (hnodup : path.Nodup)
    (hlast : last ∈ path.getLast?) (hbase : g.Inherits last b) (hmem : b ∈ path) :
    g.IsSimpleCycle (closeAt path b) where
  toIsCycle := isCycle_closeAt hpath hlast hbase hmem
  nodup := by
    rw [closeAt, List.dropLast_concat]
    exact hnodup.sublist (List.dropWhile_sublist _)

/-! ### A part of the search -/

/-- Where a search stands: `path` leads down base types, all on it was looked at, and all else that
was looked at is settled. -/
structure Stands (g : InheritanceGraph) (found : List (List Nat)) (path visited : List Nat) :
    Prop where
  chain : path.IsChain g.Inherits
  nodup : path.Nodup
  subset : path ⊆ visited
  settled : ∀ a ∈ visited, a ∈ path ∨ g.Settled found a

/-- What is known when the types `starts` below a path have been looked into: which types have been
looked at now, and which cycle was met, if one was. -/
structure Searched (g : InheritanceGraph) (found : List (List Nat)) (path visited starts : List Nat)
    (answer : List Nat × Option (List Nat)) : Prop where
  subset : visited ⊆ answer.1
  /-- What was given up leads to the cycle that was met. -/
  settled : ∀ a ∈ answer.1, a ∈ path ∨ g.Settled (found ++ answer.2.toList) a
  starts_settled : answer.2 = none → ∀ a ∈ starts, g.Settled found a
  isSimpleCycle : ∀ c ∈ answer.2, g.IsSimpleCycle c
  reached : ∀ c ∈ answer.2, ∃ a ∈ starts, ∃ b ∈ c, g.Leads a b
  within : ∀ c ∈ answer.2, c ⊆ answer.1
  /-- A cycle is met on types that were not looked at before, or on the path. -/
  fresh : ∀ c ∈ answer.2, ∀ b ∈ c, b ∈ path ∨ b ∉ visited

theorem Searched.nil (h : g.Stands found path visited) :
    g.Searched found path visited [] (visited, none) where
  subset := List.Subset.refl _
  settled := by simpa using h.settled
  starts_settled _ := by simp
  isSimpleCycle := nofun
  reached := nofun
  within := nofun
  fresh := nofun

/-- A type that was looked at and does not stand on the path is settled. -/
theorem Searched.known (h : g.Stands found path visited) (ha : a ∈ visited) (hpath : a ∉ path) :
    g.Searched found path visited [a] (visited, none) where
  subset := List.Subset.refl _
  settled := by simpa using h.settled
  starts_settled _ := by simpa using (h.settled a ha).resolve_left hpath
  isSimpleCycle := nofun
  reached := nofun
  within := nofun
  fresh := nofun

/-- The search goes on behind types below which no cycle was met. -/
theorem Searched.append (h : g.Searched found path visited starts (visited', none))
    (h' : g.Searched found path visited' rest answer) :
    g.Searched found path visited (starts ++ rest) answer where
  subset := List.Subset.trans h.subset h'.subset
  settled := h'.settled
  starts_settled hnone a ha := (List.mem_append.mp ha).elim (h.starts_settled rfl a)
    (h'.starts_settled hnone a)
  isSimpleCycle := h'.isSimpleCycle
  reached c hc :=
    have ⟨a, ha, hleads⟩ := h'.reached c hc
    ⟨a, List.mem_append_right _ ha, hleads⟩
  within := h'.within
  fresh c hc b hb := (h'.fresh c hc b hb).imp_right fun hnew hvisited => hnew (h.subset hvisited)

/-- The search stops at a cycle, and the other types are not looked into. -/
theorem Searched.stop (h : g.Searched found path visited starts (visited', some cycle)) :
    g.Searched found path visited (starts ++ rest) (visited', some cycle) where
  subset := h.subset
  settled := h.settled
  starts_settled := nofun
  isSimpleCycle := h.isSimpleCycle
  reached c hc :=
    have ⟨a, ha, hleads⟩ := h.reached c hc
    ⟨a, List.mem_append_left _ ha, hleads⟩
  within := h.within
  fresh := h.fresh

/-- A base that stands on the path closes a cycle. -/
theorem Searched.close (h : g.Stands found path visited) (hlast : last ∈ path.getLast?)
    (hbase : g.Inherits last b) (hmem : b ∈ path) :
    g.Searched found path visited [b] (visited, some (closeAt path b)) := by
  -- A cycle that is closed on the path has been visited as a whole.
  have hpath : closeAt path b ⊆ path := by
    refine List.append_subset.mpr ⟨(List.dropWhile_suffix _).subset, ?_⟩
    simpa using hmem
  exact {
    subset := List.Subset.refl _
    settled := fun a ha => (h.settled a ha).imp_right fun ha =>
      ha.mono (List.subset_append_left _ _)
    starts_settled := nofun
    isSimpleCycle := by
      rintro c ⟨⟩
      exact isSimpleCycle_closeAt h.chain h.nodup hlast hbase hmem
    reached := by
      rintro c ⟨⟩
      exact ⟨b, by simp, b, by simp [closeAt], .refl⟩
    within := by
      rintro c ⟨⟩
      exact List.Subset.trans hpath h.subset
    fresh := by
      rintro c ⟨⟩ d hd
      exact .inl (hpath hd) }

/-- A type is done with when its bases are. If a cycle was met below them, the type is given up: it
leads to this cycle. -/
theorem Searched.up (h : g.Searched found (path ++ [id]) (id :: visited) (g.bases id) answer)
    (hnew : id ∉ visited) : g.Searched found path visited [id] answer := by
  have hreached : ∀ c ∈ answer.2, ∃ b ∈ c, g.Leads id b := by
    intro c hc
    obtain ⟨a, ha, b, hb, hleads⟩ := h.reached c hc
    exact ⟨b, hb, .head (mem_bases.mp ha) hleads⟩
  -- Without a cycle all bases are settled; with one, the type leads to it.
  have hid : g.Settled (found ++ answer.2.toList) id := by
    cases hanswer : answer.2 with
    | none => simpa using settled_of_bases (h.starts_settled hanswer)
    | some c =>
      obtain ⟨b, hb, hleads⟩ := hreached c hanswer
      exact .inl ⟨c, by simp, b, hb, hleads⟩
  exact {
    subset := List.Subset.trans (List.subset_cons_self _ _) h.subset
    settled := fun a ha => by
      rcases h.settled a ha with hpath | hsettled
      · rcases List.mem_append.mp hpath with hpath | hpath
        · exact .inl hpath
        · obtain rfl := List.mem_singleton.mp hpath
          exact .inr hid
      · exact .inr hsettled
    starts_settled := fun hnone a ha => by
      obtain rfl := List.mem_singleton.mp ha
      exact settled_of_bases (h.starts_settled hnone)
    isSimpleCycle := h.isSimpleCycle
    reached := fun c hc =>
      have ⟨b, hb, hleads⟩ := hreached c hc
      ⟨id, by simp, b, hb, hleads⟩
    within := h.within
    fresh := fun c hc b hb => by
      rcases h.fresh c hc b hb with hpath | hfresh
      · rcases List.mem_append.mp hpath with hpath | hpath
        · exact .inl hpath
        · obtain rfl := List.mem_singleton.mp hpath
          exact .inr hnew
      · exact .inr fun hvisited => hfresh (List.mem_cons_of_mem _ hvisited) }

theorem Stands.push (h : g.Stands found path visited) (hid : ∀ l ∈ path.getLast?, g.Inherits l id)
    (hnew : id ∉ visited) : g.Stands found (path ++ [id]) (id :: visited) where
  chain := by
    refine List.isChain_append.mpr ⟨h.chain, List.isChain_singleton _, ?_⟩
    rintro l hl b ⟨⟩
    exact hid l hl
  nodup := List.nodup_append.mpr ⟨h.nodup, List.nodup_singleton _, fun a ha b hb heq =>
    hnew (h.subset (List.mem_singleton.mp hb ▸ heq ▸ ha))⟩
  subset := List.append_subset.mpr
    ⟨List.Subset.trans h.subset (List.subset_cons_self _ _), by simp⟩
  settled a ha := by
    rcases List.mem_cons.mp ha with rfl | ha
    · exact .inl (by simp)
    · exact (h.settled a ha).imp_left (List.mem_append_left _)

/-- A path on which no type stands twice is no longer than the number of edges and one. -/
theorem Stands.length_le (h : g.Stands found path visited) :
    path.length ≤ g.edges.length + 1 := by
  cases path with
  | nil => exact Nat.zero_le _
  | cons a l =>
    have hbases : ∀ b ∈ l, b ∈ g.edges.map (·.2) := by
      have hchain := h.chain
      clear h
      induction l generalizing a with
      | nil => exact nofun
      | cons d l ih =>
        obtain ⟨hstep, htail⟩ := List.isChain_cons_cons.mp hchain
        exact List.forall_mem_cons.mpr ⟨List.mem_map_of_mem hstep, ih d htail⟩
    have hle := (List.subperm_of_subset (List.nodup_cons.mp h.nodup).2 hbases).length_le
    rw [List.length_map] at hle
    exact Nat.succ_le_succ hle

theorem searched_searchBases {bases : List Nat}
    (hsearch : ∀ {visited b}, g.Stands found path visited → (∀ l ∈ path.getLast?, g.Inherits l b) →
      b ∉ visited → g.Searched found path visited [b] (g.search path visited b depth))
    (hlast : last ∈ path.getLast?) (hbases : ∀ b ∈ bases, g.Inherits last b)
    (h : g.Stands found path visited) :
    g.Searched found path visited bases (g.searchBases path visited depth bases) := by
  -- along the bases, which end where a cycle is found
  induction bases generalizing visited with
  | nil =>
    rw [searchBases]
    exact .nil h
  | cons base rest ih =>
    obtain ⟨hbase, hrest⟩ := List.forall_mem_cons.mp hbases
    rw [searchBases]
    split
    · next hnew =>
      have hfirst := hsearch h (fun l hl => Option.mem_unique hl hlast ▸ hbase)
        (by simpa using hnew)
      split
      case h_1 heq =>
        rw [heq] at hfirst
        exact hfirst.stop
      case h_2 heq =>
        rw [heq] at hfirst
        refine hfirst.append (ih hrest ?_)
        exact ⟨h.chain, h.nodup, List.Subset.trans h.subset hfirst.subset,
          by simpa using hfirst.settled⟩
    · next hknown =>
      have hknown : base ∈ visited := by simpa using hknown
      split
      · next hpath => exact (Searched.close h hlast hbase (by simpa using hpath)).stop
      · next hpath => exact (Searched.known h hknown (by simpa using hpath)).append (ih hrest h)

/-- A search from a type on keeps what is known. It never runs out of depth, since no type stands
twice on its path. -/
theorem searched_search (h : g.Stands found path visited)
    (hid : ∀ l ∈ path.getLast?, g.Inherits l id) (hnew : id ∉ visited)
    (hdepth : depth + path.length = g.edges.length + 2) :
    g.Searched found path visited [id] (g.search path visited id depth) := by
  induction depth generalizing path visited id with
  | zero =>
    have := h.length_le
    omega
  | succ depth ih =>
    rw [search]
    have hend : id ∈ (path ++ [id]).getLast? := by simp
    refine Searched.up ?_ hnew
    refine searched_searchBases (fun hstands hlast hb => ih hstands hlast hb ?_) hend
      (fun b hb => mem_bases.mp hb) (h.push hid hnew)
    rw [List.length_append, List.length_singleton]
    omega

/-- A type that was looked into was looked at. -/
theorem mem_search (h : g.Stands found [] visited) (hnew : id ∉ visited) :
    id ∈ (g.search [] visited id (g.edges.length + 2)).1 := by
  have hend : id ∈ ([] ++ [id]).getLast? := by simp
  have hbelow := searched_searchBases (fun hstands hlast hb => searched_search hstands hlast hb rfl)
    hend (fun b hb => mem_bases.mp hb) (h.push nofun hnew)
  rw [search]
  exact hbelow.subset (List.mem_cons_self ..)

/-! ### The whole search -/

/-- One type in turn: it is skipped if it was looked at before. -/
def survey (g : InheritanceGraph) (state : List Nat × List (List Nat)) (t : Nat × String) :
    List Nat × List (List Nat) :=
  if state.1.contains t.1 then state
  else
    let (visited, cycle) := g.search [] state.1 t.1 (g.edges.length + 2)
    (visited, state.2 ++ cycle.toList)

theorem cycles_eq (g : InheritanceGraph) : g.cycles = (g.types.foldl g.survey ([], [])).2 := rfl

/-- What is known when some types have been taken in turn: which were looked at, and which cycles
were found. -/
structure Surveyed (g : InheritanceGraph) (state : List Nat × List (List Nat)) : Prop where
  settled : ∀ a ∈ state.1, g.Settled state.2 a
  isSimpleCycle : ∀ c ∈ state.2, g.IsSimpleCycle c
  within : ∀ c ∈ state.2, c ⊆ state.1
  disjoint : state.2.Pairwise List.Disjoint

/-- A type that was looked into leads to the cycle that was met, if one was. -/
theorem Searched.start_settled (h : g.Searched found path visited [a] answer) :
    g.Settled (found ++ answer.2.toList) a := by
  cases hanswer : answer.2 with
  | none => simpa using h.starts_settled hanswer
  | some c =>
    obtain ⟨d, hd, b, hb, hleads⟩ := h.reached c hanswer
    obtain rfl := List.mem_singleton.mp hd
    exact .inl ⟨c, by simp, b, hb, hleads⟩

variable {state : List Nat × List (List Nat)}

theorem Surveyed.stands (h : g.Surveyed state) : g.Stands state.2 [] state.1 where
  chain := List.isChain_nil
  nodup := List.nodup_nil
  subset := List.nil_subset _
  settled a ha := .inr (h.settled a ha)

/-- One more type in turn keeps what is known, and is settled then. -/
theorem Surveyed.survey (h : g.Surveyed state) (t : Nat × String) :
    g.Surveyed (g.survey state t) ∧ state.2 ⊆ (g.survey state t).2 ∧
      g.Settled (g.survey state t).2 t.1 := by
  rw [InheritanceGraph.survey]
  split
  · next hknown =>
    exact ⟨h, List.Subset.refl _, h.settled _ (List.contains_iff_mem.mp hknown)⟩
  · next hnew =>
    -- A search from here starts with an empty path, so that all it visits is settled in the end.
    have hsearched := searched_search h.stands nofun (by simpa using hnew) rfl
    refine ⟨?_, List.subset_append_left _ _, hsearched.start_settled⟩
    exact {
      settled := fun a ha => (hsearched.settled a ha).resolve_left List.not_mem_nil
      isSimpleCycle := fun c hc => (List.mem_append.mp hc).elim (h.isSimpleCycle c)
        fun hc => hsearched.isSimpleCycle c (Option.mem_toList.mp hc)
      within := fun c hc => (List.mem_append.mp hc).elim
        (fun hc => List.Subset.trans (h.within c hc) hsearched.subset)
        fun hc => hsearched.within c (Option.mem_toList.mp hc)
      disjoint := by
        refine List.pairwise_append.mpr ⟨h.disjoint, ?_, fun c hc d hd => ?_⟩
        · cases (g.search [] state.1 t.1 (g.edges.length + 2)).2 <;> simp
        · -- the types of the new cycle were not looked at before
          refine List.disjoint_left.mpr fun b hbc hbd => ?_
          have hfresh := hsearched.fresh d (Option.mem_toList.mp hd) b hbd
          exact hfresh.resolve_left List.not_mem_nil (h.within c hc hbc) }

theorem Surveyed.foldl (h : g.Surveyed state) (ts : List (Nat × String)) :
    g.Surveyed (ts.foldl g.survey state) ∧ state.2 ⊆ (ts.foldl g.survey state).2 ∧
      ∀ t ∈ ts, g.Settled (ts.foldl g.survey state).2 t.1 := by
  induction ts generalizing state with
  | nil => exact ⟨h, List.Subset.refl _, nofun⟩
  | cons t ts ih =>
    obtain ⟨hone, hsub, ht⟩ := h.survey t
    obtain ⟨hall, hsub', hts⟩ := ih hone
    exact ⟨hall, List.Subset.trans hsub hsub',
      List.forall_mem_cons.mpr ⟨ht.mono hsub', hts⟩⟩

/-- Each type of a graph leads to a cycle that is found or to none. What is found are cycles, and no
type stands on two of them. -/
theorem surveyed_cycles (g : InheritanceGraph) :
    (∀ t ∈ g.types, g.Settled g.cycles t.1) ∧ (∀ c ∈ g.cycles, g.IsSimpleCycle c) ∧
      g.cycles.Pairwise List.Disjoint := by
  have hstart : g.Surveyed ([], []) := ⟨nofun, nofun, nofun, .nil⟩
  obtain ⟨hall, -, htypes⟩ := hstart.foldl g.types
  rw [cycles_eq]
  exact ⟨htypes, hall.isSimpleCycle, hall.disjoint⟩

/-- The types in turn that the search starts from, each with the cycle at which it stops, if it
meets one. -/
def searchesFrom (g : InheritanceGraph) (visited : List Nat) :
    List (Nat × String) → List (Nat × Option (List Nat))
  | [] => []
  | t :: ts =>
    if visited.contains t.1 then searchesFrom g visited ts
    else
      let (visited, cycle) := g.search [] visited t.1 (g.edges.length + 2)
      (t.1, cycle) :: searchesFrom g visited ts

/-- The types of a graph that the search starts from, each with the cycle at which it stops. -/
def searches (g : InheritanceGraph) : List (Nat × Option (List Nat)) := g.searchesFrom [] g.types

theorem foldl_survey_eq (g : InheritanceGraph) (ts : List (Nat × String)) :
    (ts.foldl g.survey state).2 = state.2 ++ (g.searchesFrom state.1 ts).filterMap (·.2) := by
  induction ts generalizing state with
  | nil => simp [searchesFrom]
  | cons t ts ih =>
    rw [List.foldl_cons, ih, searchesFrom, survey]
    split
    · rfl
    · cases hcycle : (g.search [] state.1 t.1 (g.edges.length + 2)).2 <;> simp [hcycle]

/-- What is found are the cycles at which the searches stop, so one at most for each start. -/
theorem cycles_eq_filterMap_searches (g : InheritanceGraph) :
    g.cycles = g.searches.filterMap (·.2) := by
  rw [cycles_eq, foldl_survey_eq, List.nil_append]
  rfl

theorem sublist_searchesFrom (g : InheritanceGraph) (ts : List (Nat × String)) :
    ((g.searchesFrom visited ts).map (·.1)).Sublist (ts.map (·.1)) := by
  induction ts generalizing visited with
  | nil => exact .slnil
  | cons t ts ih =>
    rw [searchesFrom]
    split
    · exact .cons _ ih
    · exact .cons_cons _ ih

/-- A search starts from each type once, and it stops at a cycle that the type leads to. -/
theorem Surveyed.searchesFrom (h : g.Surveyed state) (ts : List (Nat × String)) :
    ((g.searchesFrom state.1 ts).map (·.1)).Nodup ∧
      ∀ s ∈ g.searchesFrom state.1 ts, s.1 ∉ state.1 ∧ ∀ c ∈ s.2, ∀ b ∈ c, g.Leads s.1 b := by
  induction ts generalizing state with
  | nil => exact ⟨.nil, nofun⟩
  | cons t ts ih =>
    -- Each start is visited by its search, so no later search starts there again.
    have hnext := (h.survey t).1
    rw [InheritanceGraph.survey] at hnext
    rw [InheritanceGraph.searchesFrom]
    split at hnext
    · next hknown =>
      rw [if_pos hknown]
      exact ih h
    · next hnew =>
      have hnew' : t.1 ∉ state.1 := by simpa using hnew
      have hsearched := searched_search h.stands nofun hnew' rfl
      obtain ⟨hnodup, hall⟩ := ih hnext
      rw [if_neg hnew]
      refine ⟨List.nodup_cons.mpr ⟨fun hmem => ?_, hnodup⟩, List.forall_mem_cons.mpr ⟨⟨hnew', ?_⟩,
        fun s hs => ⟨fun hmem => (hall s hs).1 (hsearched.subset hmem), (hall s hs).2⟩⟩⟩
      · obtain ⟨s, hs, heq⟩ := List.mem_map.mp hmem
        exact (hall s hs).1 (heq ▸ mem_search h.stands hnew')
      · intro c hc b hb
        obtain ⟨a, ha, d, hd, hleads⟩ := hsearched.reached c hc
        obtain rfl := List.mem_singleton.mp ha
        exact hleads.trans ((hsearched.isSimpleCycle c hc).leads hd hb)

/-- All types that inherit from others are types of the graph. -/
def Listed (g : InheritanceGraph) : Prop := ∀ a b, g.Inherits a b → ∃ t ∈ g.types, t.1 = a

/-- A type on a cycle leads to a cycle that is found. -/
theorem Listed.leadsInto_cycles (h : g.Listed) (hcycle : g.IsCycle cycle) (ha : a ∈ cycle) :
    g.LeadsInto g.cycles a := by
  obtain ⟨b, hbase⟩ := hcycle.inherits_of_mem ha
  obtain ⟨t, ht, rfl⟩ := h a b hbase
  exact ((surveyed_cycles g).1 t ht).resolve_right fun hclear =>
    hclear t.1 .refl (hcycle.onCycle ha)

theorem Listed.exists_mem_cycles (h : g.Listed) (hcycle : g.IsCycle cycle) (ha : a ∈ cycle) :
    ∃ c ∈ g.cycles, g.IsSimpleCycle c ∧ ∀ b ∈ c, g.Leads a b := by
  obtain ⟨c, hc, d, hd, hleads⟩ := h.leadsInto_cycles hcycle ha
  have hsimple := (surveyed_cycles g).2.1 c hc
  exact ⟨c, hc, hsimple, fun b hb => hleads.trans (hsimple.leads hd hb)⟩

theorem IsCycle.exists_mem (h : g.IsCycle cycle) : ∃ a, a ∈ cycle := by
  obtain ⟨start, between, rfl⟩ := h.closed
  exact ⟨start, List.mem_cons_self⟩

/-- Some cycle is found if and only if there is one. -/
theorem Listed.cycles_eq_nil_iff (h : g.Listed) :
    g.cycles = [] ↔ ¬∃ cycle, g.IsCycle cycle := by
  constructor
  · rintro hnone ⟨cycle, hcycle⟩
    obtain ⟨a, ha⟩ := hcycle.exists_mem
    obtain ⟨c, hc, -⟩ := h.exists_mem_cycles hcycle ha
    rw [hnone] at hc
    cases hc
  · intro hnone
    by_contra hsome
    obtain ⟨c, hc⟩ := List.exists_mem_of_ne_nil _ hsome
    exact hnone ⟨c, ((surveyed_cycles g).2.1 c hc).toIsCycle⟩

/-! ### Strongly connected components -/

/-- Two types that lead to each other. -/
def Connected (g : InheritanceGraph) (a b : Nat) : Prop := g.Leads a b ∧ g.Leads b a

/-- The strongly connected component of a type contains a cycle. -/
def Holds (g : InheritanceGraph) (a : Nat) (cycle : List Nat) : Prop :=
  g.IsCycle cycle ∧ ∀ b ∈ cycle, g.Connected a b

/-- A component that contains a cycle leads to one that is found. -/
theorem Holds.exists_mem_cycles (h : g.Listed) (hholds : g.Holds a cycle) :
    ∃ c ∈ g.cycles, g.IsSimpleCycle c ∧ ∀ b ∈ c, g.Leads a b := by
  obtain ⟨hcycle, hconnected⟩ := hholds
  obtain ⟨d, hd⟩ := hcycle.exists_mem
  obtain ⟨c, hc, hsimple, hleads⟩ := h.exists_mem_cycles hcycle hd
  exact ⟨c, hc, hsimple, fun b hb => (hconnected d hd).1.trans (hleads b hb)⟩

end InheritanceGraph

theorem Rules.listed_inheritanceGraph (ts : List TypeBases) : (inheritanceGraph ts).Listed := by
  intro a b hbase
  have hshows := shows_inheritanceGraph ts
  obtain ⟨t, ht, -, -, rfl, -⟩ := hshows.inherits hbase
  obtain ⟨name, hname⟩ := hshows.listed t ht
  exact ⟨_, hname, rfl⟩

/-- What is found in the inheritance graph of some types are cycles: chains of base types that end
where they start and on which no other type stands twice. Nothing is found only if there is no
cycle. -/
theorem inheritance_cycles_found (ts : List Rules.TypeBases) :
    let g := Rules.inheritanceGraph ts
    (∀ cycle ∈ g.cycles, g.IsSimpleCycle cycle) ∧
      (g.cycles = [] ↔ ¬∃ cycle, g.IsCycle cycle) :=
  ⟨(InheritanceGraph.surveyed_cycles _).2.1, (Rules.listed_inheritanceGraph ts).cycles_eq_nil_iff⟩

/-- A strongly connected component that contains a cycle leads to a cycle that is found. So it
contains one itself unless it leads to a cycle in another component. The search starts from each
type once at most, and from each start it finds one cycle at most, one that the start leads to. No
type stands on two of the cycles that are found. -/
theorem hidden_cycles_lead_to_found (ts : List Rules.TypeBases) :
    let g := Rules.inheritanceGraph ts
    (∀ a cycle, g.Holds a cycle → ∃ c ∈ g.cycles, ∀ b ∈ c, g.Leads a b) ∧
    (∀ a cycle, g.Holds a cycle →
      (∀ other, g.IsCycle other → (∀ b ∈ other, g.Leads a b) → ∀ b ∈ other, g.Leads b a) →
        ∃ c ∈ g.cycles, g.Holds a c) ∧
    (g.cycles = g.searches.filterMap (·.2) ∧ (g.searches.map (·.1)).Nodup ∧
      (g.searches.map (·.1)).Sublist (g.types.map (·.1)) ∧
      ∀ start answer, (start, answer) ∈ g.searches → ∀ c ∈ answer, ∀ b ∈ c, g.Leads start b) ∧
    g.cycles.Pairwise List.Disjoint := by
  intro g
  have hlisted := Rules.listed_inheritanceGraph ts
  have hstart : g.Surveyed ([], []) := ⟨nofun, nofun, nofun, .nil⟩
  obtain ⟨hnodup, hsearches⟩ := hstart.searchesFrom g.types
  refine ⟨fun a cycle hholds => ?_, fun a cycle hholds hback => ?_,
    ⟨g.cycles_eq_filterMap_searches, hnodup, g.sublist_searchesFrom g.types,
      fun start answer hmem => (hsearches _ hmem).2⟩, (InheritanceGraph.surveyed_cycles g).2.2⟩
  · obtain ⟨c, hc, -, hleads⟩ := hholds.exists_mem_cycles hlisted
    exact ⟨c, hc, hleads⟩
  -- The cycle that is found has to lead back, so it is in the same component.
  · obtain ⟨c, hc, hsimple, hleads⟩ := hholds.exists_mem_cycles hlisted
    have hback := hback c hsimple.toIsCycle hleads
    exact ⟨c, hc, hsimple.toIsCycle, fun b hb => ⟨hleads b hb, hback b hb⟩⟩

/-- An interface that inherits from another one and from itself, where the other one inherits from
itself, too. -/
def hiddenText : List UInt8 :=
  "interface A : B, A \x7b\x7d interface B : B \x7b\x7d".toList.map Lexer.ascii

theorem graph_hiddenText :
    graphOfText hiddenText = some ([(0, "A"), (1, "B")], [(0, 1), (0, 0), (1, 1)]) := by
  rw [show hiddenText = _ from Lexer.ascii_ofList _]
  decide +kernel

/-- The first interface is a component by itself and contains a cycle, but only the cycle of the
other one is found. -/
theorem circle_hidden_behind_base : ∃ types edges, graphOfText hiddenText = some (types, edges) ∧
    let g : InheritanceGraph := ⟨types, edges⟩
    g.cycles = [[1, 1]] ∧ g.Holds 0 [0, 0] ∧ ¬∃ c ∈ g.cycles, g.Holds 0 c := by
  refine ⟨_, _, graph_hiddenText, ?_⟩
  intro g
  have hcycles : g.cycles = [[1, 1]] := by
    simp [g, InheritanceGraph.cycles, InheritanceGraph.search, InheritanceGraph.searchBases,
      InheritanceGraph.bases, InheritanceGraph.closeAt]
  -- There is no way back from the second interface to the first one.
  have hnoway : ∀ a, g.Leads 1 a → a = 1 := by
    intro a hleads
    induction hleads with
    | refl => rfl
    | tail _ hstep ih =>
      subst ih
      simpa [g, InheritanceGraph.Inherits] using hstep
  refine ⟨hcycles, ⟨⟨by simp [g, InheritanceGraph.Inherits], 0, [], rfl⟩, ?_⟩, ?_⟩
  · intro b hb
    obtain rfl : b = 0 := by simpa using hb
    exact ⟨.refl, .refl⟩
  · rintro ⟨c, hc, hholds⟩
    rw [hcycles] at hc
    obtain rfl := List.mem_singleton.mp hc
    exact absurd (hnoway 0 (hholds.2 1 (by simp)).2) (by decide)

end CSharpAudit
