import CSharpAudit.Proofs.References

/-!
# The order in which projects are loaded

References are followed depth first: what a project names is loaded, with all that it leads to,
before the next project that is named beside it. The list of projects can be told without the visit.
A route is a way along references that comes to no project twice. Of the routes to a project one
comes first when the places of their references are compared in lexicographic order, and projects
are loaded in the order of their first routes. The project in front of another one on its first
route is the one that references it first, and if the other one cannot be read, this is noted there.

## Main definitions

* `ProjectSource.named` — the references of a project that are followed
* `ProjectSource.Route`, `ProjectSource.places` — a route and the places of its references
* `ProjectSource.IsFirst` — a route that comes first among those to the same project
* `ProjectSource.DepthFirst` — what is known of the routes along which projects are visited
* `ProjectSource.listing` — the projects at the ends of routes, with notes on those that cannot be
  read

## Main results

* `ProjectSource.DepthFirst.append`, `ProjectSource.DepthFirst.head` — visits one after the other,
  and a visit of a project before those that it names
* `ProjectSource.lists_reach` — following references visits projects in this order
* `Workspace.load_depth_first` — the workspace of a project
-/

namespace CSharpAudit

namespace ProjectSource

variable {source : ProjectSource} {fuel : Nat} {p q : String}
  {starts starts' seen seen' seen'' route : List String} {routes routes' : List (List String)}

/-! ### Routes -/

/-- The references of a project that are followed, as they are written. -/
def named (source : ProjectSource) (p : String) : List String :=
  if source.follow then
    match source.read p with
    | .ok project => project.projectReferences.filter source.present
    | .error _ => []
  else []

theorem mem_named_iff : q ∈ source.named p ↔ source.Names p q := by
  unfold named Names
  cases source.follow <;> cases source.read p <;> simp

/-- A route begins at one of some projects and goes on along references. It comes to no project
twice and to none that has been tried before. -/
structure Route (source : ProjectSource) (starts seen route : List String) : Prop where
  start : ∃ p ∈ starts, route.head? = some p
  chain : route.IsChain source.Names
  nodup : route.Nodup
  avoids : ∀ p ∈ route, p ∉ seen

theorem Route.ne_nil (h : source.Route starts seen route) : route ≠ [] := by
  rintro rfl
  obtain ⟨p, -, hp⟩ := h.start
  cases hp

/-- Behind its first project a route goes on along a reference of this project. -/
theorem route_cons_iff : source.Route starts seen (p :: route) ↔ p ∈ starts ∧ p ∉ seen ∧
    (route = [] ∨ source.Route (source.named p) (p :: seen) route) := by
  constructor
  · rintro ⟨⟨_, hstart, hhead⟩, hchain, hnodup, havoids⟩
    -- A route without its head starts at a reference of the head and has to avoid it as well.
    obtain rfl := Option.some.inj hhead
    refine ⟨hstart, havoids p List.mem_cons_self, ?_⟩
    cases route with
    | nil => exact .inl rfl
    | cons q rest =>
      obtain ⟨hnames, hchain⟩ := List.isChain_cons_cons.mp hchain
      obtain ⟨hnew, hnodup⟩ := List.nodup_cons.mp hnodup
      refine .inr ⟨⟨q, mem_named_iff.mpr hnames, rfl⟩, hchain, hnodup, fun r hr hmem => ?_⟩
      rcases List.mem_cons.mp hmem with rfl | hmem
      · exact hnew hr
      · exact havoids r (List.mem_cons_of_mem _ hr) hmem
  · rintro ⟨hstart, hp, rfl | ⟨⟨q, hq, hhead⟩, hchain, hnodup, havoids⟩⟩
    · exact ⟨⟨p, hstart, rfl⟩, List.isChain_singleton _, List.nodup_singleton _, by simpa using hp⟩
    · refine ⟨⟨p, hstart, rfl⟩, List.isChain_cons.mpr ⟨fun r hr => ?_, hchain⟩,
        List.nodup_cons.mpr ⟨fun hmem => havoids p hmem List.mem_cons_self, hnodup⟩, ?_⟩
      · rw [Option.mem_unique hr hhead]
        exact mem_named_iff.mp hq
      · exact List.forall_mem_cons.mpr
          ⟨hp, fun r hr hmem => havoids r hr (List.mem_cons_of_mem _ hmem)⟩

/-- The places of the references along a route, each among the references of one project. -/
def places (source : ProjectSource) : List String → List String → List Nat
  | _, [] => []
  | starts, p :: rest => starts.idxOf p :: source.places (source.named p) rest

/-- A route comes first among those to the same project. -/
def IsFirst (source : ProjectSource) (starts seen route : List String) : Prop :=
  source.Route starts seen route ∧ ∀ other, source.Route starts seen other →
    other.getLast? = route.getLast? → source.places starts route ≤ source.places starts other

/-- Further starts behind do not change the places. -/
theorem places_append_left (h : ∀ p ∈ route.head?, p ∈ starts) :
    source.places (starts ++ starts') route = source.places starts route := by
  cases route with
  | nil => rfl
  | cons p rest => rw [places, List.idxOf_append, if_pos (h p rfl), places]

/-- Starts in front come before all others. -/
theorem places_append_lt {other : List String} (h : source.Route starts seen route)
    (hother : source.Route starts' seen' other) (hnew : ∀ p ∈ other.head?, p ∉ starts) :
    source.places (starts ++ starts') route < source.places (starts ++ starts') other := by
  obtain ⟨p, hp, hhead⟩ := h.start
  obtain ⟨q, -, hhead'⟩ := hother.start
  obtain ⟨rest, rfl⟩ := List.head?_eq_some_iff.mp hhead
  obtain ⟨rest', rfl⟩ := List.head?_eq_some_iff.mp hhead'
  rw [places, places, List.idxOf_append, if_pos hp, List.idxOf_append, if_neg (hnew q rfl),
    List.cons_lt_cons_iff]
  have := List.idxOf_lt_length_iff.mpr hp
  exact .inl (by omega)

/-- Starts in front do not change the order of routes that begin at others. -/
theorem places_append_right_lt {other : List String} (h : source.Route starts' seen route)
    (hother : source.Route starts' seen' other) (hnew : ∀ p ∈ route.head?, p ∉ starts)
    (hnew' : ∀ p ∈ other.head?, p ∉ starts) :
    source.places (starts ++ starts') route < source.places (starts ++ starts') other ↔
      source.places starts' route < source.places starts' other := by
  obtain ⟨p, hp, hhead⟩ := h.start
  obtain ⟨q, hq, hhead'⟩ := hother.start
  obtain ⟨rest, rfl⟩ := List.head?_eq_some_iff.mp hhead
  obtain ⟨rest', rfl⟩ := List.head?_eq_some_iff.mp hhead'
  simp only [places, List.idxOf_append, if_neg (hnew p rfl), if_neg (hnew' q rfl),
    List.cons_lt_cons_iff, Nat.add_lt_add_iff_right, Nat.add_right_cancel_iff]

/-! ### Visits in depth-first order -/

/-- What is known when the projects `seen'` have been tried, those in `seen` before and the others
at the ends of some routes, in the order of these. -/
structure DepthFirst (source : ProjectSource) (starts seen seen' : List String)
    (routes : List (List String)) : Prop extends source.Explored starts seen seen' where
  isRoute : ∀ r ∈ routes, source.Route starts seen r
  /-- No other route comes before the one to the same project. -/
  exists_le : ∀ r, source.Route starts seen r →
    ∃ s ∈ routes, s.getLast? = r.getLast? ∧ source.places starts s ≤ source.places starts r
  ordered : routes.Pairwise fun r s => source.places starts r < source.places starts s
  nodup : (routes.map List.getLast?).Nodup
  mem_iff : ∀ q, q ∈ seen' ↔ q ∈ seen ∨ ∃ r ∈ routes, r.getLast? = some q
  /-- A project is visited on a route from the one in front of it. -/
  dropLast_mem : ∀ r ∈ routes, r.dropLast = [] ∨ r.dropLast ∈ routes

theorem DepthFirst.nil (seen : List String) : source.DepthFirst [] seen seen [] where
  toExplored := .nil seen
  isRoute _ h := absurd h List.not_mem_nil
  exists_le r h := by
    obtain ⟨p, hp, -⟩ := h.start
    cases hp
  ordered := .nil
  nodup := .nil
  mem_iff q := by simp
  dropLast_mem _ h := absurd h List.not_mem_nil

/-- No route leads to what has been tried before. -/
theorem DepthFirst.tried (h : p ∈ seen) : source.DepthFirst [p] seen seen [] where
  toExplored := .tried h
  isRoute _ h := absurd h List.not_mem_nil
  exists_le r hr := by
    obtain ⟨q, hq, hhead⟩ := hr.start
    rw [List.mem_singleton.mp hq] at hhead
    exact absurd h (hr.avoids p (List.mem_of_mem_head? hhead))
  ordered := .nil
  nodup := .nil
  mem_iff q := by simp
  dropLast_mem _ h := absurd h List.not_mem_nil

/-- A route that does not end at a project that has been tried comes to none. -/
theorem Explored.avoids (h : source.Explored starts seen seen')
    (hchain : route.IsChain source.Names) (havoids : ∀ p ∈ route, p ∉ seen)
    (hlast : ∀ q ∈ route.getLast?, q ∉ seen') : ∀ p ∈ route, p ∉ seen' := by
  induction route with
  | nil => exact List.forall_mem_nil _
  | cons a rest ih =>
    obtain ⟨ha, havoids⟩ := List.forall_mem_cons.mp havoids
    cases rest with
    | nil => simpa using hlast
    | cons b rest =>
      rw [List.getLast?_cons_cons] at hlast
      obtain ⟨hnames, hchain⟩ := List.isChain_cons_cons.mp hchain
      have hrest := ih hchain havoids hlast
      refine List.forall_mem_cons.mpr ⟨fun hmem => ?_, hrest⟩
      exact hrest b List.mem_cons_self ((h.closed a hmem).resolve_left ha b hnames)

theorem Route.exists_getLast? (h : source.Route starts seen route) :
    ∃ q ∈ route, route.getLast? = some q :=
  ⟨_, List.getLast_mem h.ne_nil, List.getLast?_eq_some_getLast h.ne_nil⟩

theorem Route.mono (h : source.Route starts seen' route) (hstarts : starts ⊆ starts')
    (hseen : seen ⊆ seen') : source.Route starts' seen route where
  start := h.start.imp fun _ hp => ⟨hstarts hp.1, hp.2⟩
  chain := h.chain
  nodup := h.nodup
  avoids p hp hmem := h.avoids p hp (hseen hmem)

theorem Route.head_not_mem (h : source.Route starts seen route) : ∀ p ∈ route.head?, p ∉ seen :=
  fun p hp => h.avoids p (List.mem_of_mem_head? hp)

/-- The places along a route do not change when there are further starts behind its own. -/
theorem Route.places_append (h : source.Route starts seen route) :
    source.places (starts ++ starts') route = source.places starts route := by
  obtain ⟨p, hp, hhead⟩ := h.start
  exact places_append_left fun q hq => Option.mem_unique hq hhead ▸ hp

section Append

variable (h : source.DepthFirst starts seen seen' routes)
  (h' : source.DepthFirst starts' seen' seen'' routes')
include h

/-- A route of a later visit begins at none of the former starts. -/
theorem DepthFirst.head?_not_mem (hr : source.Route starts' seen' route) :
    ∀ p ∈ route.head?, p ∉ starts :=
  fun p hp hmem => hr.head_not_mem p hp (h.starts_subset hmem)

include h'

/-- No other route comes before the one on which a project is visited, at first or later. -/
theorem DepthFirst.exists_le_append (hr : source.Route (starts ++ starts') seen route) :
    ∃ s ∈ routes ++ routes', s.getLast? = route.getLast? ∧
      source.places (starts ++ starts') s ≤ source.places (starts ++ starts') route := by
  obtain ⟨q, hq, hlast⟩ := hr.exists_getLast?
  obtain ⟨p, hp, hhead⟩ := hr.start
  by_cases hmem : q ∈ seen'
  · by_cases hstart : p ∈ starts
    · -- the route is one of the former visit
      have hr' : source.Route starts seen route :=
        ⟨⟨p, hstart, hhead⟩, hr.chain, hr.nodup, hr.avoids⟩
      obtain ⟨s, hs, hsame, hle⟩ := h.exists_le route hr'
      rw [← (h.isRoute s hs).places_append, ← hr'.places_append] at hle
      exact ⟨s, List.mem_append_left _ hs, hsame, hle⟩
    · -- the project has been tried before, and any route from there comes first
      obtain ⟨s, hs, hsame⟩ := ((h.mem_iff q).mp hmem).resolve_left (hr.avoids q hq)
      have hr' : source.Route starts' seen route :=
        ⟨⟨p, (List.mem_append.mp hp).resolve_left hstart, hhead⟩, hr.chain, hr.nodup, hr.avoids⟩
      refine ⟨s, List.mem_append_left _ hs, hsame.trans hlast.symm, le_of_lt ?_⟩
      exact places_append_lt (h.isRoute s hs) hr' fun a ha => Option.mem_unique ha hhead ▸ hstart
  · -- the route comes to nothing that has been tried
    have havoids := h.toExplored.avoids hr.chain hr.avoids
      fun a ha => Option.mem_unique ha hlast ▸ hmem
    have hstart : p ∉ starts := fun hstart =>
      havoids p (List.mem_of_mem_head? hhead) (h.starts_subset hstart)
    have hr' : source.Route starts' seen' route :=
      ⟨⟨p, (List.mem_append.mp hp).resolve_left hstart, hhead⟩, hr.chain, hr.nodup, havoids⟩
    obtain ⟨s, hs, hsame, hle⟩ := h'.exists_le route hr'
    refine ⟨s, List.mem_append_right _ hs, hsame, not_lt.mp fun hlt => not_lt.mpr hle ?_⟩
    exact (places_append_right_lt hr' (h'.isRoute s hs) (h.head?_not_mem hr')
      (h.head?_not_mem (h'.isRoute s hs))).mp hlt

/-- The former routes come before the later ones, and each visit keeps its own order. -/
theorem DepthFirst.ordered_append : (routes ++ routes').Pairwise fun r s =>
    source.places (starts ++ starts') r < source.places (starts ++ starts') s := by
  refine List.pairwise_append.mpr ⟨?_, ?_, fun r hr s hs => ?_⟩
  · refine h.ordered.imp_of_mem fun hr hs hlt => ?_
    rwa [(h.isRoute _ hr).places_append, (h.isRoute _ hs).places_append]
  · refine h'.ordered.imp_of_mem fun hr hs hlt => ?_
    exact (places_append_right_lt (h'.isRoute _ hr) (h'.isRoute _ hs)
      (h.head?_not_mem (h'.isRoute _ hr)) (h.head?_not_mem (h'.isRoute _ hs))).mpr hlt
  · exact places_append_lt (h.isRoute r hr) (h'.isRoute s hs) (h.head?_not_mem (h'.isRoute s hs))

/-- Some projects are visited after others. -/
theorem DepthFirst.append :
    source.DepthFirst (starts ++ starts') seen seen'' (routes ++ routes') := by
  refine {
    toExplored := h.toExplored.append h'.toExplored
    isRoute := fun r hr => ?_
    exists_le := fun r hr => h.exists_le_append h' hr
    ordered := h.ordered_append h'
    nodup := ?_
    mem_iff := fun q => ?_
    dropLast_mem := ?_ }
  · rcases List.mem_append.mp hr with hr | hr
    · exact (h.isRoute r hr).mono (List.subset_append_left _ _) (List.Subset.refl _)
    · exact (h'.isRoute r hr).mono (List.subset_append_right _ _) h.subset
  · -- a later route ends at none of the projects that have been tried
    rw [List.map_append]
    refine List.nodup_append.mpr ⟨h.nodup, h'.nodup, fun a ha b hb heq => ?_⟩
    obtain ⟨r, hr, rfl⟩ := List.mem_map.mp ha
    obtain ⟨s, hs, rfl⟩ := List.mem_map.mp hb
    obtain ⟨q, hq, hlast⟩ := (h'.isRoute s hs).exists_getLast?
    exact (h'.isRoute s hs).avoids q hq ((h.mem_iff q).mpr (.inr ⟨r, hr, heq.trans hlast⟩))
  · rw [h'.mem_iff, h.mem_iff, or_assoc]
    simp only [List.mem_append, or_and_right, exists_or]
  · refine List.forall_mem_append.mpr ⟨fun r hr => ?_, fun r hr => ?_⟩
    · exact (h.dropLast_mem r hr).imp_right (List.mem_append_left _)
    · exact (h'.dropLast_mem r hr).imp_right (List.mem_append_right _)

end Append

/-- A project is visited before those that it names. -/
theorem DepthFirst.head (hp : p ∉ seen)
    (h : source.DepthFirst (source.named p) (p :: seen) seen' routes) :
    source.DepthFirst [p] seen seen' ([p] :: routes.map (p :: ·)) := by
  have hroute {r : List String} : source.Route [p] seen (p :: r) ↔
      r = [] ∨ source.Route (source.named p) (p :: seen) r := by
    rw [route_cons_iff, and_iff_right (List.mem_singleton.mpr rfl), and_iff_right hp]
  have hplaces (r : List String) :
      source.places [p] (p :: r) = 0 :: source.places (source.named p) r := by
    rw [places, List.idxOf_cons_self]
  have hlast {r : List String} (hr : r ∈ routes) : (p :: r).getLast? = r.getLast? :=
    List.getLast?_cons_of_ne_nil (h.isRoute r hr).ne_nil
  refine {
    toExplored := h.toExplored.head (source.named p) fun q => mem_named_iff.symm
    isRoute := ?_
    exists_le := fun r hr => ?_
    ordered := ?_
    nodup := ?_
    mem_iff := fun q => ?_
    dropLast_mem := ?_ }
  · refine List.forall_mem_cons.mpr ⟨hroute.mpr (.inl rfl), fun r hr => ?_⟩
    obtain ⟨s, hs, rfl⟩ := List.mem_map.mp hr
    exact hroute.mpr (.inr (h.isRoute s hs))
  · obtain ⟨q, hq, hhead⟩ := hr.start
    obtain ⟨rest, rfl⟩ := List.head?_eq_some_iff.mp hhead
    obtain rfl := List.mem_singleton.mp hq
    rcases hroute.mp hr with rfl | hrest
    · exact ⟨_, List.mem_cons_self, rfl, le_rfl⟩
    · -- one more project in front of both does not change which comes first
      obtain ⟨s, hs, hsame, hle⟩ := h.exists_le rest hrest
      refine ⟨_, List.mem_cons_of_mem _ (List.mem_map_of_mem hs), ?_, ?_⟩
      · rw [hlast hs, hsame, List.getLast?_cons_of_ne_nil hrest.ne_nil]
      · rw [hplaces, hplaces]
        exact not_lt.mp fun hlt => not_lt.mpr hle (List.cons_lt_cons_self.mp hlt)
  · refine List.pairwise_cons.mpr ⟨fun r hr => ?_, ?_⟩
    · -- the route that stops at the project comes before those that go on
      obtain ⟨s, hs, rfl⟩ := List.mem_map.mp hr
      obtain ⟨q, rest, rfl⟩ := List.exists_cons_of_ne_nil (h.isRoute s hs).ne_nil
      rw [hplaces, hplaces, places, places]
      exact List.cons_lt_cons_self.mpr (List.nil_lt_cons _ _)
    · refine List.pairwise_map.mpr (h.ordered.imp fun hlt => ?_)
      rw [hplaces, hplaces]
      exact List.cons_lt_cons_self.mpr hlt
  · rw [List.map_cons, List.map_map]
    have hsame : routes.map (List.getLast? ∘ (p :: ·)) = routes.map List.getLast? :=
      List.map_congr_left fun r hr => hlast hr
    refine List.nodup_cons.mpr ⟨fun hmem => ?_, hsame ▸ h.nodup⟩
    -- no other route comes back to the project, since it counts as tried
    rw [hsame] at hmem
    obtain ⟨r, hr, heq⟩ := List.mem_map.mp hmem
    obtain ⟨q, hq, hend⟩ := (h.isRoute r hr).exists_getLast?
    obtain rfl : p = q := Option.some.inj (heq.symm.trans hend)
    exact (h.isRoute r hr).avoids p hq List.mem_cons_self
  · rw [h.mem_iff, List.mem_cons, or_comm (a := q = p), or_assoc]
    refine or_congr_right ?_
    rw [List.exists_mem_cons_iff]
    refine or_congr ⟨fun heq => heq ▸ rfl, fun heq => (Option.some.inj heq).symm⟩ ?_
    constructor
    · rintro ⟨r, hr, hend⟩
      exact ⟨_, List.mem_map_of_mem hr, (hlast hr).trans hend⟩
    · rintro ⟨_, hmem, hend⟩
      obtain ⟨r, hr, rfl⟩ := List.mem_map.mp hmem
      exact ⟨r, hr, (hlast hr).symm.trans hend⟩
  · refine List.forall_mem_cons.mpr ⟨.inl rfl, fun r hr => .inr ?_⟩
    obtain ⟨s, hs, rfl⟩ := List.mem_map.mp hr
    rw [List.dropLast_cons_of_ne_nil (h.isRoute s hs).ne_nil]
    rcases h.dropLast_mem s hs with hstart | hmem
    · rw [hstart]
      exact List.mem_cons_self
    · exact List.mem_cons_of_mem _ (List.mem_map_of_mem hmem)

/-! ### What is listed -/

/-- The note on a reference to a project that cannot be read. -/
def referenceNote (path : String) (e : LoadError) : String :=
  "ProjectReference " ++ path ++ ": " ++ e.message

/-- The note on the project at the end of a route, if it cannot be read. -/
def note? (source : ProjectSource) (route : List String) : Option String :=
  route.getLast?.bind fun q =>
    match source.read q with
    | .ok _ => none
    | .error e => some (referenceNote q e)

/-- The notes on the projects one step behind a route. -/
def notesBehind (source : ProjectSource) (routes : List (List String)) (route : List String) :
    List String :=
  (routes.filter fun r => r.dropLast == route).filterMap source.note?

/-- The project at the end of a route, with notes on those behind it that cannot be read. -/
def listed? (source : ProjectSource) (routes : List (List String)) (route : List String) :
    Option Project :=
  route.getLast?.bind fun p => (source.read p).toOption.map fun project =>
    { project with errors := project.errors ++ source.notesBehind routes route }

/-- The projects at the ends of some routes. -/
def listing (source : ProjectSource) (routes : List (List String)) : List Project :=
  routes.filterMap (source.listed? routes)

theorem notesBehind_append : source.notesBehind (routes ++ routes') route =
    source.notesBehind routes route ++ source.notesBehind routes' route := by
  rw [notesBehind, List.filter_append, List.filterMap_append]
  rfl

/-- A route one step longer has the same start. -/
theorem head?_eq_of_dropLast_eq {r : List String} (hroute : route ≠ []) (h : r.dropLast = route) :
    r.head? = route.head? := by
  have hlength := List.length_pos_iff.mpr hroute
  rw [← h, List.length_dropLast] at hlength
  rw [← h, List.head?_dropLast, if_pos (by omega)]

theorem notesBehind_eq_nil (hroute : route ≠ []) (h : ∀ r ∈ routes, r.head? ≠ route.head?) :
    source.notesBehind routes route = [] := by
  rw [notesBehind, List.filter_eq_nil_iff.mpr fun r hr heq =>
    h r hr (head?_eq_of_dropLast_eq hroute (eq_of_beq heq))]
  rfl

/-- Routes with different starts are listed apart. -/
theorem listing_append (hne : ∀ r ∈ routes ++ routes', r ≠ [])
    (h : ∀ r ∈ routes, ∀ s ∈ routes', r.head? ≠ s.head?) :
    source.listing (routes ++ routes') = source.listing routes ++ source.listing routes' := by
  unfold listing
  rw [List.filterMap_append]
  refine congrArg₂ _ (List.filterMap_congr fun r hr => ?_) (List.filterMap_congr fun r hr => ?_)
  · have hnil : source.notesBehind routes' r = [] :=
      notesBehind_eq_nil (hne r (List.mem_append_left _ hr)) fun s hs heq => h r hr s hs heq.symm
    rw [listed?, notesBehind_append, hnil, List.append_nil]
    rfl
  · have hnil : source.notesBehind routes r = [] :=
      notesBehind_eq_nil (hne r (List.mem_append_right _ hr)) fun s hs => h s hs r hr
    rw [listed?, notesBehind_append, hnil, List.nil_append]
    rfl

/-- Behind a common start the notes are those of the rest. -/
theorem notesBehind_head (hne : ∀ r ∈ routes, r ≠ []) :
    source.notesBehind ([p] :: routes.map (p :: ·)) (p :: route) =
      source.notesBehind routes route := by
  have hfilter : routes.filter ((fun r => r.dropLast == p :: route) ∘ (p :: ·)) =
      routes.filter fun r => r.dropLast == route := by
    refine List.filter_congr fun r hr => ?_
    rw [Function.comp_apply, List.dropLast_cons_of_ne_nil (hne r hr), List.cons_beq_cons,
      beq_self_eq_true, Bool.true_and]
  rw [notesBehind, List.filter_cons_of_neg (by simp), List.filter_map, List.filterMap_map, hfilter]
  refine List.filterMap_congr fun r hr => ?_
  rw [Function.comp_apply, note?, List.getLast?_cons_of_ne_nil (hne r (List.mem_of_mem_filter hr))]
  rfl

/-- A project is listed in front of those behind it, with the notes on those it references. -/
theorem listing_head (hne : ∀ r ∈ routes, r ≠ []) :
    source.listing ([p] :: routes.map (p :: ·)) = ((source.read p).toOption.map fun project =>
      { project with errors := project.errors ++ source.notesBehind routes [] }).toList ++
        source.listing routes := by
  have hrest : (routes.map (p :: ·)).filterMap
      (source.listed? ([p] :: routes.map (p :: ·))) = source.listing routes := by
    rw [List.filterMap_map]
    refine List.filterMap_congr fun r hr => ?_
    rw [Function.comp_apply, listed?, List.getLast?_cons_of_ne_nil (hne r hr),
      notesBehind_head hne]
    rfl
  rw [listing, List.filterMap_cons, hrest]
  rw [listed?, notesBehind_head hne, List.getLast?_singleton, Option.bind_some]
  cases source.read p <;> rfl

/-- A project that is visited without anything in front of it is noted as such. -/
theorem notesBehind_start (hne : ∀ r ∈ routes, r ≠ []) :
    source.notesBehind ([p] :: routes.map (p :: ·)) [] = (source.note? [p]).toList := by
  have hnone : (routes.map (p :: ·)).filter (fun r => r.dropLast == []) = [] := by
    refine List.filter_eq_nil_iff.mpr fun r hr => ?_
    obtain ⟨s, hs, rfl⟩ := List.mem_map.mp hr
    rw [List.dropLast_cons_of_ne_nil (hne s hs)]
    exact Bool.false_ne_true
  rw [notesBehind, List.filter_cons_of_pos (by rfl), hnone]
  cases hnote : source.note? [p] <;> simp [hnote]

/-! ### Following references -/

/-- A visit tries projects in depth-first order, lists those that can be read, and tells of those
asked for that cannot. -/
def Lists (source : ProjectSource) (starts seen seen' : List String) (projects : List Project)
    (notes : List String) : Prop :=
  ∃ routes, source.DepthFirst starts seen seen' routes ∧ projects = source.listing routes ∧
    notes = source.notesBehind routes []

theorem DepthFirst.ne_nil (h : source.DepthFirst starts seen seen' routes) :
    ∀ r ∈ routes, r ≠ [] := fun r hr => (h.isRoute r hr).ne_nil

theorem Lists.nil (seen : List String) : source.Lists [] seen seen [] [] :=
  ⟨[], .nil seen, rfl, rfl⟩

/-- A project is listed, if it can be read, in front of what it leads to, and told of otherwise. -/
theorem Lists.head {ps : List Project} {notes : List String} (hp : p ∉ seen)
    (h : source.Lists (source.named p) (p :: seen) seen' ps notes) :
    source.Lists [p] seen seen'
      (((source.read p).toOption.map fun project =>
        { project with errors := project.errors ++ notes }).toList ++ ps)
      (source.note? [p]).toList := by
  obtain ⟨routes, hvisit, rfl, rfl⟩ := h
  exact ⟨_, hvisit.head hp, (listing_head hvisit.ne_nil).symm,
    (notesBehind_start hvisit.ne_nil).symm⟩

/-- A project that leads to no other one is visited alone. -/
theorem Lists.alone (hp : p ∉ seen) (hnamed : source.named p = []) :
    source.Lists [p] seen (p :: seen) (source.read p).toOption.toList
      (source.note? [p]).toList := by
  have hnil : source.Lists (source.named p) (p :: seen) (p :: seen) [] [] := by
    rw [hnamed]
    exact .nil _
  simpa using hnil.head hp

theorem Lists.append {ps ps' : List Project} {notes notes' : List String}
    (h : source.Lists starts seen seen' ps notes)
    (h' : source.Lists starts' seen' seen'' ps' notes') :
    source.Lists (starts ++ starts') seen seen'' (ps ++ ps') (notes ++ notes') := by
  obtain ⟨routes, hvisit, rfl, rfl⟩ := h
  obtain ⟨routes', hvisit', rfl, rfl⟩ := h'
  have hvisits := hvisit.append hvisit'
  refine ⟨_, hvisits, (listing_append hvisits.ne_nil fun r hr s hs heq => ?_).symm,
    notesBehind_append.symm⟩
  -- the starts of the second visit are new
  obtain ⟨p, hp, hhead⟩ := (hvisit.isRoute r hr).start
  exact (hvisit'.isRoute s hs).head_not_mem p (heq ▸ hhead) (hvisit.starts_subset hp)

theorem lists_reachAll {visit : List String → String → Reached}
    (hvisit : ∀ seen p, source.Enough fuel seen → source.Lists [p] seen (visit seen p).seen
      (visit seen p).projects ((visit seen p).error.map (referenceNote p)).toList)
    (hfuel : source.Enough fuel seen) (paths : List String) :
    source.Lists paths seen (reachAll visit seen paths).1
      ((reachAll visit seen paths).2.flatMap (·.projects))
      ((paths.zip (reachAll visit seen paths).2).filterMap fun (ref, r) =>
        r.error.map (referenceNote ref)) := by
  induction paths generalizing seen with
  | nil => exact ⟨[], .nil seen, rfl, rfl⟩
  | cons p paths ih =>
    have hp := hvisit seen p hfuel
    have hsubset : seen ⊆ (visit seen p).seen := by
      obtain ⟨_, h, -⟩ := hp
      exact h.subset
    have hall := hp.append (ih (hfuel.mono hsubset))
    rw [List.singleton_append] at hall
    rw [reachAll, List.flatMap_cons, List.zip_cons_cons, List.filterMap_cons]
    cases herror : (visit seen p).error with
    | none => simpa [herror] using hall
    | some e => simpa [herror] using hall

/-- Following references visits projects in depth-first order. -/
theorem lists_reach (hfuel : source.Enough fuel seen) (p : String) :
    source.Lists [p] seen (reach source fuel seen p).seen (reach source fuel seen p).projects
      ((reach source fuel seen p).error.map (referenceNote p)).toList := by
  -- on the fuel, which is enough for the projects that have not been tried
  induction fuel generalizing seen p with
  | zero => exact absurd hfuel.pos (Nat.lt_irrefl 0)
  | succ fuel ih =>
    rw [reach]
    split
    -- Nothing is visited twice, so this visit adds no route.
    · next hseen => exact ⟨[], .tried (List.contains_iff_mem.mp hseen), rfl, rfl⟩
    next hseen =>
    have hnew : p ∉ seen := fun h => hseen (List.contains_iff_mem.mpr h)
    dsimp only
    split
    · next e hread =>
      -- A project that cannot be read has no references, but a note.
      have hnamed : source.named p = [] := by simp [named, hread]
      simpa [note?, hread, Except.toOption] using Lists.alone hnew hnamed
    next project hread =>
    split
    · next hfollow =>
      have hnamed : source.named p = [] := by simp_all [named]
      simpa [note?, hread, Except.toOption] using Lists.alone hnew hnamed
    · next hfollow =>
      have hbroken : ¬source.Broken p := by simp [Broken, hread, Except.isOk, Except.toBool]
      have hnamed : source.named p = project.projectReferences.filter source.present := by
        simp_all [named]
      have hlists := Lists.head hnew
        (lists_reachAll (fun seen q h => ih h q) (hfuel.cons hbroken hnew) (source.named p))
      have hnote : source.note? [p] = none := by simp [note?, hread]
      rw [hnote, hnamed, hread] at hlists
      exact hlists

/-! ### The projects of a visit -/

/-- A route along which a visit comes to a project is the first one to it. -/
theorem DepthFirst.isFirst (h : source.DepthFirst starts seen seen' routes) {r : List String}
    (hr : r ∈ routes) : source.IsFirst starts seen r := by
  refine ⟨h.isRoute r hr, fun other hother hsame => ?_⟩
  obtain ⟨s, hs, hend, hle⟩ := h.exists_le other hother
  rwa [← List.inj_on_of_nodup_map h.nodup hs hr (hend.trans hsame)]

theorem map_path_listing
    (hpath : ∀ p project, source.read p = .ok project → project.path = p) :
    (source.listing routes).map (·.path) =
      (routes.filterMap List.getLast?).filter fun p => (source.read p).isOk := by
  rw [listing, List.map_filterMap, ← List.filterMap_eq_filter, List.filterMap_filterMap]
  refine List.filterMap_congr fun r _ => ?_
  cases hlast : r.getLast? with
  | none => simp [listed?, hlast]
  | some p =>
    cases hread : source.read p with
    | error e =>
      simp [listed?, hlast, hread, Except.toOption, Except.isOk, Except.toBool, Option.guard]
    | ok project =>
      simp [listed?, hlast, hread, Except.toOption, Except.isOk, Except.toBool,
        hpath p project hread]

/-- No project is listed twice. -/
theorem DepthFirst.nodup_path (h : source.DepthFirst starts seen seen' routes)
    (hpath : ∀ p project, source.read p = .ok project → project.path = p) :
    ((source.listing routes).map (·.path)).Nodup := by
  rw [map_path_listing hpath]
  have hends : ((routes.map List.getLast?).filterMap id).Nodup :=
    h.nodup.filterMap fun a b c ha hb => ha.trans hb.symm
  rw [List.filterMap_map] at hends
  exact hends.filter _

theorem mem_path_listing (hpath : ∀ p project, source.read p = .ok project → project.path = p) :
    q ∈ (source.listing routes).map (·.path) ↔
      (∃ r ∈ routes, r.getLast? = some q) ∧ ¬source.Broken q := by
  rw [map_path_listing hpath, List.mem_filter, List.mem_filterMap, Broken, Bool.not_eq_false]

/-- A project that cannot be read is noted in the project in front of it. -/
theorem DepthFirst.exists_note (h : source.DepthFirst starts seen seen' routes) {r : List String}
    {e : LoadError} (hpath : ∀ p project, source.read p = .ok project → project.path = p)
    (hr : r ∈ routes) (hq : r.getLast? = some q) (hread : source.read q = .error e)
    (hstart : q ∉ starts) : ∃ p ∈ source.listing routes, r.dropLast.getLast? = some p.path ∧
      referenceNote q e ∈ p.errors := by
  obtain ⟨front, rfl⟩ := List.getLast?_eq_some_iff.mp hq
  have hroute := h.isRoute _ hr
  have hmem := h.dropLast_mem _ hr
  rw [List.dropLast_concat] at hmem ⊢
  have hfront : front ≠ [] := by
    rintro rfl
    obtain ⟨p, hp, hhead⟩ := hroute.start
    obtain rfl := Option.some.inj hhead
    exact hstart hp
  -- the project in front names the other one, so it can be read
  have hlast := List.getLast?_eq_some_getLast hfront
  obtain ⟨-, project, hproject, -⟩ :=
    (List.isChain_append.mp hroute.chain).2.2 _ hlast q rfl
  refine ⟨{ project with errors := project.errors ++ source.notesBehind routes front },
    List.mem_filterMap.mpr ⟨front, hmem.resolve_left hfront, ?_⟩, ?_, ?_⟩
  · rw [listed?, hlast, Option.bind_some, hproject]
    rfl
  · rw [hlast, hpath _ _ hproject]
  · refine List.mem_append_right _ (List.mem_filterMap.mpr ⟨_, List.mem_filter.mpr ⟨hr, ?_⟩, ?_⟩)
    · rw [List.dropLast_concat]
      exact beq_self_eq_true _
    · rw [note?, hq, Option.bind_some, hread]

/-- Projects are listed in depth-first order from a start: along some routes, which are the first
ones to all that can be reached, in the order of the references as they are written. -/
structure InDepthFirstOrder (source : ProjectSource) (start : String) (routes : List (List String))
    (projects : List Project) : Prop where
  isFirst : ∀ r ∈ routes, source.IsFirst [start] [] r
  ordered : routes.Pairwise fun r s => source.places [start] r < source.places [start] s
  leads_iff : ∀ q, (∃ r ∈ routes, r.getLast? = some q) ↔ source.Leads start q
  /-- The projects are those at the ends of the routes that can be read, as they are read, with
  notes on those that cannot. -/
  projects_eq : projects = source.listing routes
  nodup_path : (projects.map (·.path)).Nodup
  mem_path_iff : ∀ q, q ∈ projects.map (·.path) ↔ source.Leads start q ∧ ¬source.Broken q
  /-- What cannot be read is noted in the project in front of it on the first route, which is the
  one that references it first. -/
  exists_note : ∀ q e, source.Leads start q → source.read q = .error e →
    ∃ r ∈ routes, r.getLast? = some q ∧ ∃ p ∈ projects,
      r.dropLast.getLast? = some p.path ∧ referenceNote q e ∈ p.errors

theorem DepthFirst.inDepthFirstOrder {start : String}
    (h : source.DepthFirst [start] [] seen' routes) (hread : ¬source.Broken start)
    (hpath : ∀ p project, source.read p = .ok project → project.path = p)
    (hleads : ∀ q, q ∈ seen' ↔ source.Leads start q) :
    source.InDepthFirstOrder start routes (source.listing routes) := by
  have hends (q : String) : (∃ r ∈ routes, r.getLast? = some q) ↔ source.Leads start q := by
    rw [← hleads, h.mem_iff, or_iff_right List.not_mem_nil]
  refine {
    isFirst := fun r hr => h.isFirst hr
    ordered := h.ordered
    leads_iff := hends
    projects_eq := rfl
    nodup_path := h.nodup_path hpath
    mem_path_iff := fun q => by rw [mem_path_listing hpath, hends]
    exists_note := fun q e hq he => ?_ }
  obtain ⟨r, hr, hend⟩ := (hends q).mpr hq
  have hne : q ∉ [start] := by
    rintro hstart
    obtain rfl := List.mem_singleton.mp hstart
    exact hread (by simp [Broken, he, Except.isOk, Except.toBool])
  exact ⟨r, hr, hend, h.exists_note hpath hr hend he hne⟩

end ProjectSource

/-! ### The workspace of a project -/

theorem path_of_readProject {fs : FileSystem} {path : String} {p : Project}
    (h : readProject fs path = .ok p) : p.path = path := by
  unfold readProject at h
  cases hbytes : fs.read path with
  | error e =>
    rw [hbytes] at h
    cases h
  | ok bytes =>
    rw [hbytes] at h
    cases hroot : Xml.parse? bytes with
    | none =>
      simp only [Except.mapError, bind, Except.bind, hroot] at h
      cases h
    | some root =>
      simp only [Except.mapError, bind, Except.bind, hroot] at h
      split at h
      · cases h
      · obtain rfl := Except.ok.inj h
        rfl

/-- Whether a path leads to something that is no directory. -/
def FileSystem.holdsFile (fs : FileSystem) (path : String) : Bool :=
  (fs.lookup true path).toOption.any fun t => !t.isDirectory

namespace Workspace

variable {fs : FileSystem} {path : String}

theorem path_of_read {p : String} {follow : Bool} {project : Project}
    (h : (projectSource fs follow).read p = .ok project) : project.path = p := by
  dsimp only [projectSource] at h
  split at h
  · exact path_of_readProject h
  · cases h

theorem load_eq_ofProject {follow : Bool} (hfile : fs.holdsFile path = true)
    (hproject : Text.lowered (Path.extension (fs.absolute path)) = ".csproj") :
    load fs follow path = ofProject fs follow (fs.absolute path) := by
  unfold FileSystem.holdsFile at hfile
  cases hlookup : fs.lookup true path with
  | error e => simp [hlookup, Except.toOption] at hfile
  | ok t =>
    have ht : t.isDirectory = false := by simpa [hlookup, Except.toOption] using hfile
    simp [load, hlookup, hproject, Except.mapError, ht, bind, Except.bind]

theorem requireAll_eq_of_isOk {rs : List Reached} (h : (requireAll rs).isOk = true) :
    requireAll rs = .ok (rs.flatMap (·.projects)) := by
  unfold requireAll at h ⊢
  split
  · next e he =>
    rw [he] at h
    cases h
  · rfl

/-- A project that can be read is loaded. -/
theorem ofProject_eq {start : String} {follow : Bool}
    (hread : ¬(projectSource fs follow).Broken start) : ofProject fs follow start =
      .ok { root := Path.directory start
            projects := (reachProjects fs follow [start]).flatMap (·.projects) } := by
  have hok : (requireAll (reachProjects fs follow [start])).isOk = true := by
    refine Bool.of_not_eq_false fun hfails => ?_
    obtain ⟨before, q, after, hpaths, hbroken, -⟩ := (isOk_reachProjects [start]).mp hfails
    have hq : q ∈ [start] := hpaths ▸ List.mem_append_right _ List.mem_cons_self
    rw [List.mem_singleton.mp hq] at hbroken
    exact hread hbroken
  rw [ofProject, requireAll_eq_of_isOk hok]
  rfl

/-- A project that can be read is loaded with those that it leads to, each once: the workspace lists
in depth-first order the projects that can be read, and each project that cannot is noted in the
first one that references it. -/
theorem load_depth_first (hfile : fs.holdsFile path = true)
    (hproject : Text.lowered (Path.extension (fs.absolute path)) = ".csproj")
    (hread : ¬(projectSource fs true).Broken (fs.absolute path)) :
    ∃ routes projects,
      load fs true path = .ok { root := Path.directory (fs.absolute path), projects } ∧
      (projectSource fs true).InDepthFirstOrder (fs.absolute path) routes projects := by
  have hfuel := enough_maxDepth fs true
  obtain ⟨routes, hvisit, hprojects, -⟩ := ProjectSource.lists_reachAll
    (fun seen p h => ProjectSource.lists_reach h p) hfuel [fs.absolute path]
  refine ⟨routes, _, ?_, hvisit.inDepthFirstOrder hread (fun p _ => path_of_read) fun q => ?_⟩
  · rw [load_eq_ofProject hfile hproject, ofProject_eq hread, ← hprojects]
    rfl
  · rw [ProjectSource.mem_tried_iff hfuel]
    simp

/-- A project with a reference to one that is not well formed is loaded. -/
theorem brokenReferenceDisk_depth_first : ∃ routes projects,
    load brokenReferenceDisk true "App.csproj" = .ok { root := "/ws", projects } ∧
      (projectSource brokenReferenceDisk true).InDepthFirstOrder "/ws/App.csproj" routes
        projects := by
  have habsolute : brokenReferenceDisk.absolute "App.csproj" = "/ws/App.csproj" := by
    decide +kernel
  have hroot : Path.directory "/ws/App.csproj" = "/ws" := by decide +kernel
  have hread : ((projectSource brokenReferenceDisk true).read "/ws/App.csproj").isOk = true := by
    delta brokenReferenceDisk
    dsimp only
    rw [Lexer.ascii_ofList_append, Lexer.ascii_ofList]
    decide +kernel
  rw [← hroot, ← habsolute]
  refine load_depth_first (by decide +kernel) (by decide +kernel) fun hbroken => ?_
  rw [ProjectSource.Broken, habsolute, hread] at hbroken
  cases hbroken

/-- Two projects that reference each other and a third one, which cannot be read. -/
def circularSource : ProjectSource where
  read path :=
    if path == "A" then .ok { path, projectReferences := ["B", "X"] }
    else if path == "B" then .ok { path, projectReferences := ["A", "X", "B"] }
    else .error (.malformed path)
  present _ := true
  follow := true

/-- The circle is followed once around, and what cannot be read is noted where it is come to first,
although the other project is listed in front. -/
example : (reach circularSource 3 [] "A").projects.map (fun p => (p.path, p.errors.length)) =
    [("A", 0), ("B", 1)] := by
  decide +kernel

end Workspace

end CSharpAudit
