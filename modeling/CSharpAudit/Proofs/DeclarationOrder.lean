import CSharpAudit.Proofs.Dependencies
import CSharpAudit.Proofs.Grammar.Provenance
import CSharpAudit.Syntax.SpanTable

/-!
# The order of declarations

The declarations of a file are listed by a walk through its namespaces and types. The walk meets all
declarations that stand outside local functions, and none of them twice.

What a loop of the grammar reads stands one behind the other, so a namespace or a type lists its
declarations in the order of the text. A file need not. The walk goes through the file-scoped
namespace first and then through the other entries, and these are what was read in front of that
namespace and the namespaces in blocks that stand among the declarations which it gathers. So the
declarations are in order if and only if no other entry starts in front of the end of the
file-scoped namespace. Then the tables that keep the first of several declarations of a name keep
the one that comes first in the text.

## Main definitions

* `Node.Ordered` — a namespace or a type that lists its declarations in order
* `Node.declStarts` — where the declarations of a tree start
* `Layouts.InRow` — nodes that stand one behind the other
* `Layouts.Arranged` — how the entries of a file stand that is being read
* `Node.OutsideLocals` — addresses that do not lead into local functions
* `CompilationUnit.PrefersFirst` — the first declaration of a name is the one that is kept

## Main results

* `Node.sorted_declStarts` — order from one level of nesting to all
* `Layouts.Traced.ordered` — whatever was read lists its declarations in order
* `Layouts.Grows.pairwise_declStarts_iff` — when the declarations of a file are in order
* `CompilationUnit.exists_declared_iff` — the walk meets the declarations outside local functions
* `CompilationUnit.prefersFirst_of_pairwise` — what is kept of declarations in order
* `declarations_once_and_in_order` — all this for parsed files
-/

namespace CSharpAudit

open Grammar

/-! ### Trees in order -/

namespace Node

variable {n c : Node} {a b : Node}

/-- A node ends before another one starts. -/
def Precedes (a b : Node) : Prop := a.span.stop ≤ b.span.start

/-- The declarations that a namespace or a type lists. -/
def listed : Node → List Node
  | namespaceDecl d => d.members
  | typeDecl t => t.members
  | _ => []

/-- A namespace or a type that lists its declarations in the order of the text, and has none but
these directly below it. -/
structure Ordered (n : Node) : Prop where
  pairwise : n.listed.Pairwise Precedes
  isDeclaration : ∀ c ∈ n.listed, c.isDeclaration = true
  rest : ∃ front, n.children = front ++ n.listed ∧ ∀ c ∈ front, c.declares = false

/-- A namespace is ordered when its members stand one behind the other. -/
theorem Ordered.namespaceDecl {d : NamespaceDecl Node} (hrow : d.members.Pairwise Precedes)
    (hdecl : ∀ m ∈ d.members, m.isDeclaration = true) : (Node.namespaceDecl d).Ordered where
  pairwise := hrow
  isDeclaration := hdecl
  rest := by
    refine ⟨d.usings.map usingDirective, by simp [children, listed], fun c hc => ?_⟩
    obtain ⟨u, -, rfl⟩ := List.mem_map.mp hc
    rfl

/-- A type is ordered when its members stand one behind the other. Those of an enumeration
are no declarations. -/
theorem Ordered.typeDecl {t : TypeDecl Node} (hrow : t.members.Pairwise Precedes)
    (hdecl : ∀ m ∈ t.members, m.isDeclaration = true)
    (hplain : ∀ m ∈ t.enumMembers, m.isEnumMember = true) : (Node.typeDecl t).Ordered where
  pairwise := hrow
  isDeclaration := hdecl
  rest := by
    obtain ⟨front, hchildren, hfront⟩ := exists_children_typeDecl t
    refine ⟨front ++ t.enumMembers, hchildren, List.forall_mem_append.mpr ⟨hfront, fun c hc => ?_⟩⟩
    exact declares_of_isEnumMember (hplain c hc)

/-- Where the declarations of a tree start, in the order in which they are listed. -/
def declStarts (n : Node) : List Nat :=
  ((n.reached holdsDeclarations).filter (·.isDeclaration)).map (·.span.start)

/-- What holds no declarations starts at most itself. -/
theorem declStarts_of_not_holds (h : n.holdsDeclarations = false) :
    n.declStarts = if n.isDeclaration then [n.span.start] else [] := by
  rw [declStarts, reached_eq, h]
  cases hdecl : n.isDeclaration <;> simp [hdecl]

/-- What holds declarations starts in front of them. -/
theorem declStarts_of_holds (h : n.holdsDeclarations = true) : n.declStarts =
    (if n.isDeclaration then [n.span.start] else []) ++ n.children.flatMap declStarts := by
  have hbelow : ((n.children.flatMap (reached holdsDeclarations)).filter (·.isDeclaration)).map
      (·.span.start) = n.children.flatMap declStarts := by
    rw [List.filter_flatMap, List.map_flatMap]
    rfl
  rw [declStarts, reached_eq, if_pos h, List.filter_cons]
  split
  · rw [List.map_cons, hbelow, List.singleton_append]
  · rw [hbelow, List.nil_append]

theorem declStarts_of_not_declares (h : n.declares = false) : n.declStarts = [] := by
  obtain ⟨hdecl, hholds⟩ := Bool.or_eq_false_iff.mp h
  rw [declStarts_of_not_holds hholds, hdecl]
  rfl

/-- The walk through an ordered node meets it, then what it lists. -/
theorem Ordered.declStarts_eq (h : n.Ordered) (hdecl : n.isDeclaration = true)
    (hholds : n.holdsDeclarations = true) :
    n.declStarts = n.span.start :: n.listed.flatMap declStarts := by
  obtain ⟨front, hchildren, hfront⟩ := h.rest
  have hnone : front.flatMap declStarts = [] :=
    List.flatMap_eq_nil_iff.mpr fun c hc => declStarts_of_not_declares (hfront c hc)
  rw [declStarts_of_holds hholds, hdecl, if_pos rfl, hchildren, List.flatMap_append, hnone]
  rfl

/-- Trees that stand one behind the other, each with its declarations in order. -/
theorem pairwise_flatMap_declStarts {ns : List Node} (hns : ns.Pairwise Precedes)
    (hsorted : ∀ n ∈ ns, n.declStarts.Pairwise (· ≤ ·))
    (hwithin : ∀ n ∈ ns, ∀ s ∈ n.declStarts, n.span.start ≤ s ∧ s < n.span.stop) :
    (ns.flatMap declStarts).Pairwise (· ≤ ·) := by
  refine List.pairwise_flatMap.mpr ⟨hsorted, hns.imp_of_mem fun {a b} ha hb hab s hs t ht => ?_⟩
  calc s ≤ a.span.stop := Nat.le_of_lt (hwithin a ha s hs).2
    _ ≤ b.span.start := hab
    _ ≤ t := (hwithin b hb t ht).1

/-- In a tree with nested spans whose types and namespaces list their declarations in order, all
declarations are listed in order. -/
theorem sorted_declStarts (hn : n.Nested) (hspan : n.span.start < n.span.stop)
    (hordered : ∀ m ∈ n.reached holdsDeclarations, m.isDeclaration = true →
      m.holdsDeclarations = true → m.Ordered) (hdecl : n.isDeclaration = true) :
    n.declStarts.Pairwise (· ≤ ·) ∧ ∀ s ∈ n.declStarts, n.span.start ≤ s ∧ s < n.span.stop := by
  induction n using induction_on_children with
  | step n ih =>
    cases hholds : n.holdsDeclarations with
    | false =>
      rw [declStarts_of_not_holds hholds, hdecl, if_pos rfl]
      exact ⟨List.pairwise_singleton _ _, List.forall_mem_singleton.mpr ⟨Nat.le_refl _, hspan⟩⟩
    | true =>
      rw [reached_eq, if_pos hholds] at hordered
      have hself := hordered n List.mem_cons_self hdecl hholds
      obtain ⟨front, hchildren, -⟩ := hself.rest
      -- each declaration that is listed lies inside, with its own declarations in order
      cases hn with
      | intro inside _ below =>
        have hbelow (c : Node) (hc : c ∈ n.listed) : c.span.Inside n.span ∧
            c.declStarts.Pairwise (· ≤ ·) ∧
              ∀ s ∈ c.declStarts, c.span.start ≤ s ∧ s < c.span.stop := by
          have hchild : c ∈ n.children := by simp [hchildren, hc]
          have hpart : c ∈ n.nodesBelow := List.mem_append_left _ hchild
          have hinside : c.span.Inside n.span := (inside c hpart).resolve_left (by
            cases n <;> first | exact id | cases hholds)
          exact ⟨hinside, ih c hchild (below c hpart) hinside.1 (fun m hm =>
            hordered m (List.mem_cons_of_mem _ (List.mem_flatMap.mpr ⟨c, hchild, hm⟩)))
            (hself.isDeclaration c hc)⟩
        have hwithin : ∀ s ∈ n.listed.flatMap declStarts, n.span.start ≤ s ∧ s < n.span.stop := by
          intro s hs
          obtain ⟨c, hc, hs⟩ := List.mem_flatMap.mp hs
          obtain ⟨⟨-, hstart, hstop⟩, -, hbounds⟩ := hbelow c hc
          have := hbounds s hs
          omega
        rw [hself.declStarts_eq hdecl hholds]
        refine ⟨List.pairwise_cons.mpr ⟨fun s hs => (hwithin s hs).1, ?_⟩,
          List.forall_mem_cons.mpr ⟨⟨Nat.le_refl _, hspan⟩, hwithin⟩⟩
        exact pairwise_flatMap_declStarts hself.pairwise (fun c hc => (hbelow c hc).2.1)
          fun c hc => (hbelow c hc).2.2

end Node

namespace Grammar

theorem isTypeOrMember_typeDecl (self : Rules) (h : Header) :
    Returns (typeDecl self h) (·.isTypeOrMember = true) :=
  .bind fun _ => .bind fun _ => .bind fun _ => .bind fun _ => .bind fun _ => .bind fun _ =>
    .bind fun _ => .bind fun _ => .pure rfl

theorem isDeclaration_typeLevelDecl (self : Rules) :
    Returns (typeLevelDecl self) (·.isDeclaration = true) := by
  refine .bind fun h => .branch (fun x c r hr => ?_) (.branch (fun x c r hr => ?_) .failAt)
  · exact Node.isDeclaration_of_isTypeOrMember
      (Node.isTypeOrMember_of_isMember (isMember_delegateDecl self h x c r hr))
  · exact Node.isDeclaration_of_isTypeOrMember (isTypeOrMember_typeDecl self h x c r hr)

theorem isDeclaration_namespaceEntry (self : Rules) (name : String) :
    Returns (namespaceEntry self name) fun e => ∀ n, e = .member n → n.isDeclaration = true := by
  refine .branch (.bind fun d => .pure nofun) (.branch (.bind fun ns => ?_) ?_)
  · refine .unlessStopped (.pure fun n hn => ?_)
    obtain rfl := Entry.member.inj hn
    rfl
  · refine (isDeclaration_typeLevelDecl self).then fun n hn => .pure fun n' hn' => ?_
    obtain rfl := Entry.member.inj hn'
    exact hn

/-- A namespace keeps the order of its members. -/
theorem sublist_members_contents (es : List Entry) :
    (Contents.ofEntries es).members.Sublist (Layered.nodes es) := by
  induction es with
  | nil => exact .slnil
  | cons e es ih =>
    cases e with
    | directive d => exact .cons _ ih
    | member n => exact .cons_cons n ih

theorem mem_members_contents {es : List Entry} {n : Node} :
    n ∈ (Contents.ofEntries es).members ↔ .member n ∈ es := by
  simp only [Contents.ofEntries, List.mem_filterMap]
  constructor
  · rintro ⟨e, he, hn⟩
    cases e with
    | directive d => cases hn
    | member m => exact Option.some.inj hn ▸ he
  · exact fun he => ⟨_, he, rfl⟩

end Grammar

namespace Layouts

variable {ω α : Type} [Layered α] {L : Layouts ω} {i j k l b : Nat} {self : Rules} {w : ω}
  {h : ω → Header} {ns ms : List Node}

/-! ### What a loop reads -/

variable (L) in
/-- Nodes that stand one behind the other between two indices. -/
structure InRow (w : ω) (j k : Nat) (ns : List Node) : Prop where
  pairwise : ns.Pairwise Node.Precedes
  fits : ∀ n ∈ ns, L.Fits w j k n

/-- A single node stands in a row. -/
theorem Fits.inRow {n : Node} (h : L.Fits w j k n) : L.InRow w j k [n] :=
  ⟨List.pairwise_singleton _ _, List.forall_mem_singleton.mpr h⟩

/-- A row fits in wider bounds. -/
theorem InRow.mono (h : L.InRow w j k ns) (hij : i ≤ j) (hkl : k ≤ l) : L.InRow w i l ns :=
  ⟨h.pairwise, fun n hn => (h.fits n hn).mono hij hkl⟩

/-- What is read first stands in front. -/
theorem Fits.precedes {a c : Node} (ha : L.Fits w i j a) (hc : L.Fits w k l c) (hjk : j ≤ k) :
    a.Precedes c := by
  calc a.span.stop ≤ L.behind w j := ha.stop_le
    _ ≤ L.behind w k := L.behind_mono w hjk
    _ ≤ L.start w k := L.behind_le_start w k
    _ ≤ c.span.start := hc.start_le

/-- Two rows one behind the other are a row. -/
theorem InRow.append (hns : L.InRow w j k ns) (hms : L.InRow w k l ms) (hjk : j ≤ k)
    (hkl : k ≤ l) : L.InRow w j l (ns ++ ms) where
  pairwise := List.pairwise_append.mpr ⟨hns.pairwise, hms.pairwise, fun a ha c hc =>
    (hns.fits a ha).precedes (hms.fits c hc) (Nat.le_refl k)⟩
  fits := List.forall_mem_append.mpr ⟨fun n hn => (hns.fits n hn).mono (Nat.le_refl j) hkl,
    fun n hn => (hms.fits n hn).mono hjk (Nat.le_refl l)⟩

theorem Reads.rowFuel {test : Parser Bool} {item : ω → Parser α} {holds : Nat → Prop} {fuel : Nat}
    (hfuel : L.size - j < fuel) (htest : ∀ k, j ≤ k → L.Tests test k k (holds k))
    (hitem : ∀ k, j ≤ k → holds k → L.Reads item k fun a l =>
      k < l ∧ ∀ w, L.InRow w k l (Layered.nodes (a w))) :
    L.Reads (fun w => Grammar.repeatFuel test (item w) fuel) j fun as k =>
      j ≤ k ∧ ∀ w, L.InRow w j k (Layered.nodes (as w)) := by
  induction fuel generalizing j with
  | zero => omega
  | succ fuel ih =>
    simp only [repeatFuel_succ, reads_tokensLeft]
    refine ((htest j (Nat.le_refl j)).optionalPart (hitem j (Nat.le_refl j))).bindPerhaps
      (fun k hk => ?_) fun a k hread => ?_
    · exact .pure fun _ => ⟨Nat.le_of_eq hk.symm, fun w => ⟨.nil, List.forall_mem_nil _⟩⟩
    · obtain ⟨hjk, ha⟩ := hread
      refine reads_nextRound_bind hjk (.of_le fun hk => ?_)
      refine (ih (by omega) (fun l hl => htest l (by omega))
        fun l hl => hitem l (by omega)).bind fun as l hread => ?_
      obtain ⟨hkl, has⟩ := hread
      exact .pure fun _ => ⟨by omega, fun w => (ha w).append (has w) (Nat.le_of_lt hjk) hkl⟩

/-- What a loop reads stands one behind the other. -/
theorem Reads.row {test : Parser Bool} {item : ω → Parser α} {holds : Nat → Prop}
    (htest : ∀ k, j ≤ k → L.Tests test k k (holds k))
    (hitem : ∀ k, j ≤ k → holds k → L.Reads item k fun a l =>
      k < l ∧ ∀ w, L.InRow w k l (Layered.nodes (a w))) :
    L.Reads (fun w => Grammar.repeatWhile test (item w)) j fun as k =>
      j ≤ k ∧ ∀ w, L.InRow w j k (Layered.nodes (as w)) := by
  simp only [Grammar.repeatWhile, reads_bound]
  exact .rowFuel (by omega) htest hitem

/-! ### Types -/

/-- The members of a type stand in a row. -/
theorem row_typeBody (hself : L.Good b self) (hb : b ≤ j + 1) (kind : TypeKind) (name : String) :
    L.Reads (fun _ => typeBody self kind name) j fun ms k =>
      j < k ∧ ∀ w, (ms w).Pairwise Node.Precedes := by
  refine Reads.typeBody <| (Reads.row (fun _ _ => tests_isNot) fun k hk _ =>
    Reads.unlessEnd rfl fun _ => Reads.imp (hself.member (by omega)) ?_).imp ?_
  · rintro n l - ⟨hl, e, he⟩
    exact ⟨hl, fun w => (he.fits w _ (List.mem_singleton.mpr rfl)).inRow⟩
  · rintro ms k - ⟨hk, hms⟩ l hl
    exact ⟨by omega, fun w => by simpa [Layered.nodes, NodeKind.node] using (hms w).pairwise⟩

theorem row_typeContents (hself : L.Good b self) (hb : b ≤ j + 1) (kind : TypeKind)
    (name : String) : L.Reads (fun _ => typeContents self kind name) j fun contents k =>
      j < k ∧ ∀ w, (contents w).1.Pairwise Node.Precedes := by
  refine Reads.typeContents ((listed_enumMembers hself hb).imp ?_)
    ⟨Nat.lt_succ_self j, fun w => .nil⟩ (row_typeBody hself hb kind name)
  rintro ms k - ⟨hk, -⟩ l hl
  exact ⟨by omega, fun w => .nil⟩

/-- The members of a type are read one behind the other. -/
theorem row_typeDecl (hself : L.Good b self) (hb : b ≤ j + 1) (hj : j < L.size) :
    L.Reads (fun w => typeDecl self (h w)) j fun n _ =>
      ∀ w t, n w = .typeDecl t → t.members.Pairwise Node.Precedes := by
  refine (Reads.typeDecl (P := fun _ contents => contents.1.Pairwise Node.Precedes) hself hb hj
    fun hk => row_typeContents hself (by omega) _ _).imp fun n l _ hread w t ht => ?_
  obtain ⟨t', -, hnode, hrow, -⟩ := hread.2 w
  obtain rfl := Node.typeDecl.inj (ht.symm.trans hnode)
  exact hrow

/-! ### Namespaces -/

/-- An entry of a namespace stands where it was read, and what it declares is a declaration. -/
theorem row_namespaceEntry (hself : L.Good b self) (hb : b ≤ j) (name : String) :
    L.Reads (fun _ => namespaceEntry self name) j fun e k => (j < k ∧
      ∀ w, L.InRow w j k (Layered.nodes (e w))) ∧
        ∀ w n, e w = .member n → n.isDeclaration = true := by
  refine (Reads.returning (yields_namespaceEntry hself hb name) fun _ =>
    isDeclaration_namespaceEntry self name).imp ?_
  rintro e k - ⟨⟨hk, e', he⟩, hdecl⟩
  refine ⟨⟨hk, fun w => ?_⟩, hdecl⟩
  have hfits := he.fits w
  cases hentry : e w with
  | directive d => exact (hfits _ (by rw [hentry]; exact List.mem_singleton.mpr rfl)).inRow
  | member n => exact (hfits _ (by rw [hentry]; exact List.mem_singleton.mpr rfl)).inRow

/-- The members of a namespace are declarations that are read one behind the other. -/
theorem row_namespaceDecl (hself : L.Good b self) (hb : b ≤ j + 1) [Nonempty ω] :
    L.Reads (fun _ => namespaceDecl self) j fun d _ => ∀ w,
      (d w).members.Pairwise Node.Precedes ∧ ∀ m ∈ (d w).members, m.isDeclaration = true := by
  refine (Reads.namespaceDecl (N := fun _ => True) (E := fun k l es =>
      ∀ w, L.InRow w k l (Layered.nodes (es w)) ∧
        ∀ e ∈ es w, ∀ n, e = .member n → n.isDeclaration = true)
    (reads_qualifiedName.imp fun _ _ _ _ => trivial)
    (fun k w => ⟨⟨.nil, List.forall_mem_nil _⟩, List.forall_mem_nil _⟩) fun name hk => ?_).imp ?_
  · refine (Reads.and
      (Reads.row (fun _ _ => tests_isNot) fun l hl _ => Reads.unlessEnd (by simp) fun _ =>
        (row_namespaceEntry hself (by omega) name).imp fun _ _ _ hread => hread.1)
      (Reads.repeatEach (Q := fun _ e => ∀ n, e = .member n → n.isDeclaration = true)
        (fun _ _ => tests_isNot) fun l hl _ => Reads.unlessEnd (by simp) fun _ =>
          (row_namespaceEntry hself (by omega) name).imp fun _ _ _ hread =>
            ⟨hread.1.1, hread.2⟩)).imp ?_
    rintro es l - ⟨⟨hl, hrow⟩, -, hdecl⟩
    exact ⟨hl, fun w => ⟨hrow w, hdecl w⟩⟩
  · rintro d m - ⟨-, k, l, es, -, -, -, hes, hholds⟩ w
    rw [(hholds w).members_eq]
    refine ⟨(hes w).1.pairwise.sublist (sublist_members_contents _), fun n hn => ?_⟩
    exact (hes w).2 _ (mem_members_contents.mp hn) n rfl

/-! ### Namespaces and types of any depth -/

/-- A namespace or a type that was read lists its declarations in order. -/
theorem Traced.ordered {n : Node} {tokens : List Token} (h : L.Traced w n)
    (hread : n.ReadFrom tokens) (hdecl : n.isDeclaration = true)
    (hholds : n.holdsDeclarations = true) : n.Ordered := by
  have : Nonempty ω := ⟨w⟩
  cases n with
  | namespaceDecl d =>
    obtain ⟨j, x, k, -, hx, rfl⟩ := ReadBy.elim h fun hself hb =>
      row_namespaceDecl hself hb
    exact .namespaceDecl (hx w).1 (hx w).2
  | typeDecl t =>
    obtain ⟨j, x, k, -, hx, hnode⟩ := ReadBy.elim (h rfl) fun hself hb =>
      reads_member hself hb
        (P := fun _ n => ∀ t, n = .typeDecl t → t.members.Pairwise Node.Precedes)
        (fun hk hsize => row_typeDecl hself (by omega) hsize) fun _ n hn t ht => by
          rw [ht] at hn
          cases hn
    exact .typeDecl (hx w t hnode) hread.1 hread.2.1
  | unit => cases hdecl
  | _ => cases hholds

/-! ### Files -/

variable (L) in
/-- How a file-scoped namespace stands that has been read up to an index, with the other entries of
the file in front of it, behind it or among the declarations that it gathers. -/
structure ScopeArranged (w : ω) (k : Nat) (entries : List Node) (ns : NamespaceDecl Node) :
    Prop where
  fits : L.Fits w 0 k (.namespaceDecl ns)
  row : L.InRow w 0 k ns.members
  isDeclaration : ∀ m ∈ ns.members, m.isDeclaration = true
  apart : ∀ m ∈ entries, ns.span.stop ≤ m.span.start ∨ m.span.start < ns.span.start ∨
    ∃ d ∈ ns.members, m.span.start < d.span.start

variable (L) in
/-- How the entries of a file stand that has been read up to an index. -/
structure Arranged (w : ω) (k : Nat) (u : CompilationUnit Node) : Prop where
  row : L.InRow w 0 k u.members
  isDeclaration : ∀ m ∈ u.members, m.isDeclaration = true
  scope : ∀ ns, u.fileScopedNamespace = some ns → L.ScopeArranged w k u.members ns

section Arranged

variable {u : CompilationUnit Node} {ns : NamespaceDecl Node} {decl : Node}

theorem Arranged.mono (h : L.Arranged w j u) (hjk : j ≤ k) : L.Arranged w k u where
  row := h.row.mono (Nat.le_refl 0) hjk
  isDeclaration := h.isDeclaration
  scope ns hns :=
    have hscope := h.scope ns hns
    { hscope with
      fits := hscope.fits.mono (Nat.le_refl 0) hjk
      row := hscope.row.mono (Nat.le_refl 0) hjk }

/-- What fits in front of an index starts in front of what fits behind it. -/
theorem Fits.start_lt_start {a c : Node} (ha : L.Fits w i j a) (hc : L.Fits w j k c) :
    a.span.start < c.span.start :=
  Nat.lt_of_lt_of_le ha.start_lt_stop (ha.precedes hc (Nat.le_refl j))

/-- A namespace takes the place of another one, and what the file has stands in front of it. -/
theorem Arranged.enter (h : L.Arranged w j u) (hjk : j ≤ k)
    (hfits : L.Fits w j k (.namespaceDecl ns)) (hempty : ns.members = []) :
    L.Arranged w k { u with fileScopedNamespace := some ns } where
  row := (h.mono hjk).row
  isDeclaration := h.isDeclaration
  scope ns' hns := by
    obtain rfl := Option.some.inj hns
    refine ⟨hfits.mono (Nat.zero_le j) (Nat.le_refl k), ?_, ?_, fun m hm => ?_⟩
    · rw [hempty]
      exact ⟨.nil, List.forall_mem_nil _⟩
    · rw [hempty]
      exact List.forall_mem_nil _
    · exact .inr (.inl ((h.row.fits m hm).start_lt_start hfits))

/-- A declaration behind a file-scoped namespace stands behind all that the namespace
gathers. -/
theorem Arranged.gather (h : L.Arranged w j u) (hns : u.fileScopedNamespace = some ns)
    (hjk : j ≤ k) (hfits : L.Fits w j k decl) (hdecl : decl.isDeclaration = true) :
    L.Arranged w k { u with fileScopedNamespace := some (Grammar.gather ns decl) } where
  row := (h.mono hjk).row
  isDeclaration := h.isDeclaration
  scope ns' hns' := by
    obtain rfl := Option.some.inj hns'
    have hscope := h.scope ns hns
    refine ⟨hscope.fits.gather hfits, hscope.row.append hfits.inRow (Nat.zero_le j) hjk, ?_,
      fun m hm => ?_⟩
    · exact List.forall_mem_append.mpr
        ⟨hscope.isDeclaration, List.forall_mem_singleton.mpr hdecl⟩
    · exact .inr (.inr ⟨decl, List.mem_append_right _ List.mem_cons_self,
        (h.row.fits m hm).start_lt_start hfits⟩)

/-- Without a file-scoped namespace, a declaration is put behind the others. -/
theorem Arranged.append (h : L.Arranged w j u) (hjk : j ≤ k) (hfits : L.Fits w j k decl)
    (hdecl : decl.isDeclaration = true) :
    L.Arranged w k { u with members := u.members ++ [decl] } where
  row := h.row.append hfits.inRow (Nat.zero_le j) hjk
  isDeclaration :=
    List.forall_mem_append.mpr ⟨h.isDeclaration, List.forall_mem_singleton.mpr hdecl⟩
  scope ns hns :=
    have hscope := h.scope ns hns
    { (h.mono hjk).scope ns hns with
      apart := List.forall_mem_append.mpr ⟨hscope.apart, List.forall_mem_singleton.mpr
        (.inl (hscope.fits.precedes hfits (Nat.le_refl j)))⟩ }

/-- However a file grows, it stays arranged. -/
theorem Grows.arranged (h : L.Grows w u k) : L.Arranged w k u := by
  induction h with
  | start => exact ⟨⟨.nil, List.forall_mem_nil _⟩, List.forall_mem_nil _, nofun⟩
  | front _ _ _ _ hjk ih => exact ⟨(ih.mono hjk).row, ih.isDeclaration, (ih.mono hjk).scope⟩
  | fileScoped ns _ hjk _ hempty hfits _ ih => exact ih.enter hjk hfits hempty
  | block ns _ hjk hfits _ ih => exact ih.append hjk hfits rfl
  | declared decl _ hjk hfits hdecl _ ih =>
    unfold addMember
    split
    · next ns hns => exact ih.gather hns hjk hfits hdecl
    · exact ih.append hjk hfits hdecl

end Arranged

end Layouts

/-! ### The order in a file -/

namespace Node

variable {n c : Node} {s : Nat}

/-- A declaration is met at its start. -/
theorem start_mem_declStarts (h : n.isDeclaration = true) : n.span.start ∈ n.declStarts := by
  cases hholds : n.holdsDeclarations with
  | false => simp [declStarts_of_not_holds hholds, h]
  | true => simp [declStarts_of_holds hholds, h]

/-- What is met below a part is met below the whole. -/
theorem declStarts_subset (hholds : n.holdsDeclarations = true) (hc : c ∈ n.children) :
    c.declStarts ⊆ n.declStarts := by
  intro s hs
  rw [declStarts_of_holds hholds]
  exact List.mem_append_right _ (List.mem_flatMap.mpr ⟨c, hc, hs⟩)

end Node

namespace CompilationUnit

variable {u : CompilationUnit Node}

/-- The walk of the file is that of its declarations. -/
theorem map_start_declarations (u : CompilationUnit Node) :
    u.declarations.map (·.node.span.start) = (Node.unit u).declStarts := by
  rw [Node.declStarts, ← map_node_declarations, List.map_map]
  rfl

/-- The declarations of a file are those of its file-scoped namespace and then those of its other
entries. -/
theorem declStarts_unit (u : CompilationUnit Node) : (Node.unit u).declStarts =
    (u.fileScopedNamespace.toList.map Node.namespaceDecl).flatMap Node.declStarts ++
      u.members.flatMap Node.declStarts := by
  have hnone : (u.attributes.map Node.attribute ++ u.usings.map Node.usingDirective).flatMap
      Node.declStarts = [] := by
    refine List.flatMap_eq_nil_iff.mpr fun c hc => Node.declStarts_of_not_declares ?_
    rcases List.mem_append.mp hc with hc | hc <;> obtain ⟨_, -, rfl⟩ := List.mem_map.mp hc <;> rfl
  rw [Node.declStarts_of_holds rfl, Node.children, List.flatMap_append, List.flatMap_append, hnone]
  rfl

end CompilationUnit

namespace Layouts

variable {ω : Type} {L : Layouts ω} {k : Nat} {w : ω} {u : CompilationUnit Node}
  {tokens : List Token}

/-- The namespaces and types of a file list their declarations in order. -/
theorem Grows.ordered (h : L.Grows w u k) (hread : ∀ d ∈ u.declarations, d.node.ReadFrom tokens)
    {n : Node} (hn : n ∈ (Node.unit u).reached Node.holdsDeclarations)
    (hdecl : n.isDeclaration = true) (hholds : n.holdsDeclarations = true) : n.Ordered := by
  have hmem : n ∈ u.declarations.map (·.node) := by
    rw [CompilationUnit.map_node_declarations]
    exact List.mem_filter.mpr ⟨hn, hdecl⟩
  obtain ⟨d, hd, rfl⟩ := List.mem_map.mp hmem
  rcases h.traced_of_mem hd with htraced | ⟨ns, hns, hnode⟩
  · exact htraced.ordered (hread d hd) hdecl hholds
  · have hscope := h.arranged.scope ns hns
    rw [hnode]
    exact .namespaceDecl hscope.row.pairwise hscope.isDeclaration

/-- The declarations of a file are listed in order unless an entry stands in front of the end of its
file-scoped namespace. -/
theorem Grows.pairwise_declStarts_iff (h : L.Grows w u k)
    (hread : ∀ d ∈ u.declarations, d.node.ReadFrom tokens) :
    (Node.unit u).declStarts.Pairwise (· ≤ ·) ↔ ∀ ns, u.fileScopedNamespace = some ns →
      ∀ m ∈ u.members, ns.span.stop ≤ m.span.start := by
  have hunit := h.arranged
  have hentry {n : Node} (hn : n ∈ (Node.unit u).children) (hfits : L.Fits w 0 k n)
      (hdecl : n.isDeclaration = true) : n.declStarts.Pairwise (· ≤ ·) ∧
        ∀ s ∈ n.declStarts, n.span.start ≤ s ∧ s < n.span.stop := by
    refine Node.sorted_declStarts hfits.nested hfits.start_lt_stop (fun m hm => ?_) hdecl
    refine h.ordered hread ?_
    rw [Node.reached_eq]
    exact List.mem_cons_of_mem _ (List.mem_flatMap.mpr ⟨n, hn, hm⟩)
  have hmember (m : Node) (hm : m ∈ u.members) := hentry
    (Layouts.mem_children_unit.mpr (.inr (.inr (.inr hm)))) (hunit.row.fits m hm)
    (hunit.isDeclaration m hm)
  have hmembers : (u.members.flatMap Node.declStarts).Pairwise (· ≤ ·) :=
    Node.pairwise_flatMap_declStarts hunit.row.pairwise (fun m hm => (hmember m hm).1)
      fun m hm => (hmember m hm).2
  rw [CompilationUnit.declStarts_unit]
  cases hns : u.fileScopedNamespace with
  | none => simp [hmembers]
  | some ns =>
    have hscope := hunit.scope ns hns
    have hnamespace := hentry (Layouts.mem_children_unit.mpr (.inr (.inr (.inl ⟨ns, hns, rfl⟩))))
      hscope.fits rfl
    simp only [Option.toList_some, List.map_singleton, List.flatMap_singleton, List.pairwise_append,
      hnamespace.1, hmembers, true_and, Option.some.injEq, forall_eq']
    constructor
    · intro hcross m hm
      have hstart (s : Nat) (hs : s ∈ (Node.namespaceDecl ns).declStarts) : s ≤ m.span.start :=
        hcross s hs _ (List.mem_flatMap.mpr
          ⟨m, hm, Node.start_mem_declStarts (hunit.isDeclaration m hm)⟩)
      -- an entry in front of the namespace, or of what it gathers, is met behind it on the walk
      rcases hscope.apart m hm with hbehind | hfront | ⟨d, hd, hfront⟩
      · exact hbehind
      · exact absurd (hstart _ (Node.start_mem_declStarts rfl)) (Nat.not_le_of_lt hfront)
      · have hmem := Node.start_mem_declStarts (hscope.isDeclaration d hd)
        have hchild : d ∈ (Node.namespaceDecl ns).children := by simp [Node.children, hd]
        exact absurd (hstart _ (Node.declStarts_subset rfl hchild hmem)) (Nat.not_le_of_lt hfront)
    · intro hbehind s hs t ht
      obtain ⟨m, hm, ht⟩ := List.mem_flatMap.mp ht
      calc s ≤ ns.span.stop := Nat.le_of_lt (hnamespace.2 s hs).2
        _ ≤ m.span.start := hbehind m hm
        _ ≤ t := ((hmember m hm).2 t ht).1

end Layouts

/-! ### Each declaration once -/

namespace Node

variable {root n : Node} {a : Address}

/-- An address that does not lead into a local function. -/
def OutsideLocals (root : Node) (a : Address) : Prop :=
  ∀ b m, b <:+ a → root.at? b = some m → m.isLocalFunc = false

/-- The parent of what is outside of local functions is outside, too. -/
theorem OutsideLocals.tail {i : Nat} (h : root.OutsideLocals (i :: a)) : root.OutsideLocals a :=
  fun b m hb => h b m (hb.trans (List.suffix_cons i a))

theorem at?_cons_eq_some {i : Nat} (h : root.at? (i :: a) = some n) :
    ∃ p, root.at? a = some p ∧ p.children[i]? = some n := Option.bind_eq_some_iff.mp h

/-- What stands outside local functions in a proper tree is proper. -/
theorem Proper.at? (hroot : root.Proper) (hat : root.at? a = some n)
    (hout : root.OutsideLocals a) : n.Proper := by
  induction a generalizing n with
  | nil => exact Option.some.inj hat ▸ hroot
  | cons i a ih =>
    obtain ⟨p, hp, hn⟩ := at?_cons_eq_some hat
    exact (ih hp hout.tail).child (hout.tail a p List.suffix_rfl hp) (List.mem_of_getElem? hn)

/-- A walk through nodes that hold declarations visits, in a proper tree, all that is or holds one
outside local functions. -/
theorem Proper.exists_visited {enter : Visit DeclPath → Option DeclPath} {s : DeclPath}
    (hroot : root.Proper) (henter : ∀ v, v.node.holdsDeclarations = true → (enter v).isSome = true)
    (hat : root.at? a = some n) (hout : root.OutsideLocals a) (hn : n.declares = true) :
    ∃ t, Visited enter ⟨[], s, root⟩ ⟨a, t, n⟩ := by
  induction a generalizing n with
  | nil =>
    obtain rfl := Option.some.inj hat
    exact ⟨s, .root⟩
  | cons i a ih =>
    obtain ⟨p, hp, hchild⟩ := at?_cons_eq_some hat
    have hplain := hout.tail a p List.suffix_rfl hp
    -- below any other node outside local functions nothing is declared
    have hholds : p.holdsDeclarations = true := by
      by_contra hnot
      have hinner := hroot.at? hp hout.tail p (mem_outer_self p) (Bool.eq_false_of_not_eq_true hnot)
        hplain n (List.mem_of_getElem? hchild)
      exact Bool.false_ne_true (hinner.symm.trans hn)
    obtain ⟨t, hvisited⟩ := ih hp hout.tail (by simp [declares, hholds])
    obtain ⟨below, hbelow⟩ := Option.isSome_iff_exists.mp (henter ⟨a, t, p⟩ hholds)
    exact ⟨below, .child hvisited hbelow hchild⟩

end Node

namespace CompilationUnit

variable {u : CompilationUnit Node} {a : Address} {n : Node}

/-- The walk does not enter local functions. -/
theorem outsideLocals_of_visited {v : Visit DeclPath}
    (h : Node.Visited declPath? ⟨[], {}, .unit u⟩ v) (hv : v.node.isLocalFunc = false) :
    (Node.unit u).OutsideLocals v.address := by
  induction h with
  | root =>
    intro b m hb hm
    obtain rfl := List.suffix_nil.mp hb
    obtain rfl := Option.some.inj hm
    rfl
  | @child p below i c hp henter hc ih =>
    intro b m hb hm
    rcases List.suffix_cons_iff.mp hb with rfl | hb
    · rw [(Node.Visited.child hp henter hc).at?_eq] at hm
      exact Option.some.inj hm ▸ hv
    · have hholds := (Option.ite_none_right_eq_some.mp henter).1
      exact ih (Node.isLocalFunc_of_holdsDeclarations hholds) b m hb hm

/-- The declarations of a file are all that stand outside local functions. -/
theorem exists_declared_iff (hproper : (Node.unit u).Proper) :
    (∃ d ∈ u.declarations, d.address = a ∧ d.node = n) ↔ (Node.unit u).at? a = some n ∧
      n.isDeclaration = true ∧ (Node.unit u).OutsideLocals a := by
  constructor
  · rintro ⟨d, hd, rfl, rfl⟩
    obtain ⟨v, hv, hdecl, rfl⟩ := mem_declarations_iff.mp hd
    refine ⟨hv.at?_eq, hdecl, outsideLocals_of_visited hv ?_⟩
    generalize v.node = m at hdecl
    cases m <;> first | rfl | cases hdecl
  · rintro ⟨hat, hdecl, hout⟩
    have henter (v : Visit DeclPath) (hholds : v.node.holdsDeclarations = true) :
        (declPath? v).isSome = true := by simp [declPath?, hholds]
    obtain ⟨s, hvisited⟩ := hproper.exists_visited (s := {}) henter hat hout
      (by simp [Node.declares, hdecl])
    exact ⟨_, mem_declarations_iff.mpr ⟨_, hvisited, hdecl, rfl⟩, rfl, rfl⟩

/-- No declaration is listed twice. -/
theorem nodup_address_declarations (u : CompilationUnit Node) :
    (u.declarations.map (·.address)).Nodup := by
  rw [declarations, declarationsExcept, List.map_filterMap]
  refine List.Pairwise.filterMap _ ?_ (List.pairwise_map.mp (Node.nodup_addresses _ _ _))
  intro v w hne a ha b hb
  obtain ⟨-, rfl⟩ : v.node.isDeclaration = true ∧ v.address = a := by simpa using ha
  obtain ⟨-, rfl⟩ : w.node.isDeclaration = true ∧ w.address = b := by simpa using hb
  exact hne

end CompilationUnit

/-! ### What the first declaration decides -/

/-- A declaration that is not behind another one. -/
def Declared.NotBehind (d d' : Declared) : Prop := d.node.span.start ≤ d'.node.span.start

/-- A symbol whose declaration is not behind that of another one. -/
def Symbol.NotBehind (s t : Symbol) : Prop :=
  ∀ a ∈ s.decl, ∀ b ∈ t.decl, a.2.span.start ≤ b.2.span.start

/-- The name under which the control flow of a declaration is kept, with its place, for each of its
bodies. -/
def Declared.places (d : Declared) : List (String × Int) :=
  d.node.bodies.map fun _ => (d.path.declName d.node, (d.node.span.start : Int))

/-- What is kept of several entries of one key is of the declaration that comes first. -/
theorem exists_first_of_key {α : Type} {ds : List Declared} {entries : Declared → List (String × α)}
    {e : String × α} (hsorted : ds.Pairwise Declared.NotBehind)
    (he : e ∈ firstOfKey (ds.flatMap entries)) : ∃ d ∈ ds, e ∈ entries d ∧
      ∀ d' ∈ ds, ∀ e' ∈ entries d', e'.1 = e.1 → d.NotBehind d' := by
  rw [mem_firstOfKey_iff] at he
  induction ds with
  | nil => cases he
  | cons d ds ih =>
    obtain ⟨hd, hds⟩ := List.pairwise_cons.mp hsorted
    rw [List.flatMap_cons, List.find?_append, Option.or_eq_some_iff] at he
    rcases he with hfirst | ⟨hnone, hrest⟩
    · refine ⟨d, List.mem_cons_self, List.mem_of_find?_eq_some hfirst, ?_⟩
      exact List.forall_mem_cons.mpr ⟨fun _ _ _ => Nat.le_refl _, fun d' hd' _ _ _ => hd d' hd'⟩
    · obtain ⟨d₀, hd₀, he, hleast⟩ := ih hds hrest
      refine ⟨d₀, List.mem_cons_of_mem d hd₀, he, ?_⟩
      refine List.forall_mem_cons.mpr ⟨fun e' he' hkey => ?_, hleast⟩
      exact absurd (beq_iff_eq.mpr hkey) (List.find?_eq_none.mp hnone e' he')

namespace FlowIndex

/-- The names of an index, each with the place that is kept for it. -/
def places (index : FlowIndex) : List (String × Int) := index.map fun e => (e.1, e.2.start)

/-- A flow is recorded under a name that has none yet. -/
theorem places_record (index : FlowIndex) (name : String) (flow : MemberFlow) :
    (index.record name flow).places = if index.places.any (·.1 == name) then index.places
      else index.places ++ [(name, flow.start)] := by
  have hany : index.places.any (·.1 == name) = index.any (·.1 == name) := by
    rw [places, List.any_map]
    rfl
  rw [hany, record]
  split
  · rw [places, List.map_map]
    refine List.map_congr_left fun e _ => ?_
    rw [Function.comp_apply]
    split <;> rfl
  · rw [places, List.map_append]
    rfl

/-- The control flow of a member is kept at the place of the first declaration of its name. -/
theorem places_flowIndex (u : CompilationUnit Node) :
    (flowIndex u).places = firstOfKey (u.declarations.flatMap Declared.places) := by
  rw [firstOfKey, List.foldl_flatMap]
  refine (List.foldl_hom places fun index d => ?_).symm
  rw [Declared.places, List.foldl_map, addMember]
  refine List.foldl_hom places fun index body => Eq.symm ?_
  exact places_record _ _ _

end FlowIndex

namespace CompilationUnit

variable {u : CompilationUnit Node}

/-- What is kept of several declarations of one name is of the one that comes first in the text: in
the table of names, in the index of symbols and in the index of control flow. -/
structure PrefersFirst (u : CompilationUnit Node) : Prop where
  names : ∀ e ∈ spanTable u, ∃ d ∈ u.declarations, e ∈ d.names ∧
    ∀ d' ∈ u.declarations, ∀ e' ∈ d'.names, e'.1 = e.1 → d.NotBehind d'
  symbols : ∀ test s, (symbolIndex u).symbols.find? test = some s →
    ∀ t ∈ (symbolIndex u).symbols, test t = true → s.NotBehind t
  flows : ∀ e ∈ flowIndex u, ∃ d ∈ u.declarations, d.node.bodies ≠ [] ∧
    e.1 = d.path.declName d.node ∧ e.2.start = d.node.span.start ∧
      ∀ d' ∈ u.declarations, d'.node.bodies ≠ [] → d'.path.declName d'.node = e.1 → d.NotBehind d'

/-- The symbols of declarations in order are in order. -/
theorem pairwise_symbols (hsorted : u.declarations.Pairwise Declared.NotBehind) :
    (symbolIndex u).symbols.Pairwise Symbol.NotBehind := by
  have hplace {d d' : Declared} (hd : d.NotBehind d') (s : Symbol) (hs : s ∈ d.symbols) (t : Symbol)
      (ht : t ∈ d'.symbols) : s.NotBehind t := by
    rw [Symbol.NotBehind, Declared.decl_of_mem_symbols hs, Declared.decl_of_mem_symbols ht]
    intro a ha b hb
    rw [← Option.some.inj ha, ← Option.some.inj hb]
    exact hd
  have hsymbols : (u.declarations.flatMap Declared.symbols).Pairwise Symbol.NotBehind := by
    refine List.pairwise_flatMap.mpr ⟨fun d _ => ?_, hsorted.imp hplace⟩
    exact List.pairwise_of_forall_mem_list (hplace (Nat.le_refl _))
  -- numbering the symbols changes nothing about their declarations
  rw [symbolIndex, SymbolIndex.symbols_eq, List.pairwise_map]
  rw [← List.zipIdx_map_fst 0 (u.declarations.flatMap Declared.symbols),
    List.pairwise_map] at hsymbols
  exact hsymbols

/-- In declarations in order, the first one of a name is the one that is kept. -/
theorem prefersFirst_of_pairwise (hsorted : u.declarations.Pairwise Declared.NotBehind) :
    u.PrefersFirst where
  names _ he := exists_first_of_key hsorted he
  -- A symbol behind the first one belongs to the same declaration or to a later one.
  symbols test s hs t ht htest := by
    obtain ⟨-, front, back, hsplit, hfront⟩ := List.find?_eq_some_iff_append.mp hs
    have hpairwise := pairwise_symbols hsorted
    rw [hsplit] at ht hpairwise
    rcases List.mem_append.mp ht with ht | ht
    · exact absurd htest (by simpa using hfront t ht)
    rcases List.mem_cons.mp ht with rfl | ht
    · intro a ha b hb
      rw [Option.mem_unique ha hb]
    · exact (List.pairwise_cons.mp (List.pairwise_append.mp hpairwise).2.1).1 t ht
  -- Flows are kept by name and start, just as the places of declarations are.
  flows e he := by
    have hplace : (e.1, e.2.start) ∈ firstOfKey (u.declarations.flatMap Declared.places) := by
      rw [← FlowIndex.places_flowIndex]
      exact List.mem_map_of_mem he
    obtain ⟨d, hd, hkept, hleast⟩ := exists_first_of_key hsorted hplace
    obtain ⟨body, hbody, heq⟩ := List.mem_map.mp hkept
    obtain ⟨hname, hstart⟩ := Prod.mk.inj heq
    refine ⟨d, hd, List.ne_nil_of_mem hbody, hname.symm, hstart.symm, ?_⟩
    intro d' hd' hbodies hname'
    obtain ⟨body', hbody'⟩ := List.exists_mem_of_ne_nil _ hbodies
    exact hleast d' hd' _ (List.mem_map_of_mem hbody') hname'

end CompilationUnit

/-! ### Parsed files -/

variable {source : List UInt8} {u : CompilationUnit Node}

/-- In a parsed file, each declaration outside local functions is listed once. The list is in order
just if no entry of the file starts in front of the end of its file-scoped namespace, and then the
first declaration of a name is the one that is kept. -/
theorem declarations_once_and_in_order (h : parse source = .ok u) :
    (u.declarations.map (·.address)).Nodup ∧
      (∀ a n, (∃ d ∈ u.declarations, d.address = a ∧ d.node = n) ↔
        (Node.unit u).at? a = some n ∧ n.isDeclaration = true ∧ (Node.unit u).OutsideLocals a) ∧
      (u.declarations.Pairwise Declared.NotBehind ↔ ∀ ns, u.fileScopedNamespace = some ns →
        ∀ m ∈ u.members, ns.span.stop ≤ m.span.start) ∧
      ((∀ ns, u.fileScopedNamespace = some ns → ∀ m ∈ u.members, ns.span.stop ≤ m.span.start) →
        u.PrefersFirst) := by
  obtain ⟨_, _, _, hread⟩ := readFrom_of_parse h
  obtain ⟨_, _, _, _, hgrows⟩ := grows_of_parse h
  have horder : u.declarations.Pairwise Declared.NotBehind ↔
      ∀ ns, u.fileScopedNamespace = some ns → ∀ m ∈ u.members, ns.span.stop ≤ m.span.start := by
    rw [← hgrows.pairwise_declStarts_iff hread, ← CompilationUnit.map_start_declarations,
      List.pairwise_map]
    rfl
  exact ⟨CompilationUnit.nodup_address_declarations u,
    fun _ _ => CompilationUnit.exists_declared_iff (proper_of_parse h), horder,
    fun hbehind => CompilationUnit.prefersFirst_of_pairwise (horder.mpr hbehind)⟩

/-- A file-scoped namespace with a type, and another namespace behind it. -/
def namespaceBehindText : List UInt8 :=
  "namespace N;class A\x7bint f;\x7dnamespace M\x7bclass B\x7b\x7d\x7d".toList.map Lexer.ascii

theorem namespaceBehindText_entries : (parse namespaceBehindText).toOption.any (fun u =>
    u.declarations.length == 5 && u.fileScopedNamespace.any fun ns =>
      u.members.all fun m => ns.span.stop ≤ m.span.start) = true := by
  rw [show namespaceBehindText = _ from Lexer.ascii_ofList _]
  decide +kernel

theorem declarations_in_order_of_namespace_behind : ∃ u, parse namespaceBehindText = .ok u ∧
    u.declarations.length = 5 ∧ (u.declarations.map (·.address)).Nodup ∧
      u.declarations.Pairwise Declared.NotBehind ∧ u.PrefersFirst := by
  obtain ⟨u, hparse, hfacts⟩ := exists_parse_of_any namespaceBehindText_entries
  obtain ⟨hlength, hbehind⟩ := Bool.and_eq_true_iff.mp hfacts
  obtain ⟨hnodup, -, horder, hprefers⟩ := declarations_once_and_in_order hparse
  have hbehind : ∀ ns, u.fileScopedNamespace = some ns →
      ∀ m ∈ u.members, ns.span.stop ≤ m.span.start := by
    intro ns hns
    simpa [hns] using hbehind
  exact ⟨u, hparse, eq_of_beq hlength, hnodup, horder.mpr hbehind, hprefers hbehind⟩

/-- A type that is declared in a namespace of its own and again in a file-scoped one behind it. -/
def namespaceInFrontText : List UInt8 :=
  "namespace N\x7bclass A\x7b\x7d\x7dnamespace N;class A\x7b\x7d".toList.map Lexer.ascii

theorem namespaceInFrontText_entries : (parse namespaceInFrontText).toOption.any (fun u =>
    spanTable u == [("namespace:N", ⟨32, 33⟩), ("class:N.A", ⟨40, 41⟩)] &&
      u.declarations.all fun d => !d.names.contains ("class:N.A", ⟨40, 41⟩) ||
        u.declarations.any fun d' => d'.names.any (·.1 == "class:N.A") &&
          d'.node.span.start < d.node.span.start) = true := by
  rw [show namespaceInFrontText = _ from Lexer.ascii_ofList _]
  decide +kernel

/-- The namespace in front is visited last, so that the table leads to the type behind it. -/
theorem namespace_in_front_is_visited_last : ∃ u, parse namespaceInFrontText = .ok u ∧
    ¬u.declarations.Pairwise Declared.NotBehind ∧ ¬u.PrefersFirst := by
  obtain ⟨u, hparse, hfacts⟩ := exists_parse_of_any namespaceInFrontText_entries
  obtain ⟨htable, hentries⟩ := Bool.and_eq_true_iff.mp hfacts
  have hprefers : ¬u.PrefersFirst := by
    intro h
    obtain ⟨d, hd, he, hleast⟩ := h.names ("class:N.A", ⟨40, 41⟩)
      (by rw [eq_of_beq htable]; exact List.mem_cons_of_mem _ List.mem_cons_self)
    have hfront := (Bool.or_eq_true_iff.mp (List.all_eq_true.mp hentries d hd)).resolve_left
      (by simpa using he)
    obtain ⟨d', hd', hfront⟩ := List.any_eq_true.mp hfront
    obtain ⟨hnames, hfront⟩ := Bool.and_eq_true_iff.mp hfront
    obtain ⟨e', he', hkey⟩ := List.any_eq_true.mp hnames
    exact Nat.not_le_of_lt (of_decide_eq_true hfront) (hleast d' hd' e' he' (eq_of_beq hkey))
  exact ⟨u, hparse, hprefers ∘ CompilationUnit.prefersFirst_of_pairwise, hprefers⟩

end CSharpAudit
