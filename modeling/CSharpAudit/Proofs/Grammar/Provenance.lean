import CSharpAudit.Proofs.Grammar.Listing

/-!
# Where the declarations of a file come from

Each declaration of a parsed file was read by a run of the production for members, or for
namespaces, that started at one of its tokens. So whatever these productions say of all that they
read holds of all declarations of a file, without another look at how declarations are nested.

The file itself grows entry by entry. What stands behind a file-scoped namespace is gathered in it,
apart from the other entries of the file.

## Main definitions

* `Layouts.ReadBy` — a run of a production from one of the tokens of a text has read a value
* `Layouts.Traced` — a declaration that was read by a run of the production for it
* `Layouts.Grows` — how a file comes to hold its entries

## Main results

* `Layouts.ReadBy.elim` — what a production says of all it reads is known of what it has read
* `Layouts.reads_member` — what is known of types and of other members is known of all members
* `Layouts.traces_rules` — declarations nested to any depth are traced
* `Layouts.Grows.traced_of_mem` — so are the declarations of a file
* `grows_of_parse` — a parsed file has grown out of its entries
-/

namespace CSharpAudit

open Grammar

attribute [local simp] Layered.erase

/-- Whether a node is a type or a member, which are what a type lists. -/
def Node.isTypeOrMember : Node → Bool
  | typeDecl _ => true
  | n => n.isMember

/-- Members are types or members. -/
theorem Node.isTypeOrMember_of_isMember {n : Node} (h : n.isMember = true) :
    n.isTypeOrMember = true := by
  cases n <;> first | rfl | exact h

/-- Types and members are declarations. -/
theorem Node.isDeclaration_of_isTypeOrMember {n : Node} (h : n.isTypeOrMember = true) :
    n.isDeclaration = true := by
  cases n <;> first | rfl | exact h

namespace Layouts

variable {ω : Type} {L : Layouts ω} {i j k b : Nat} {self : Rules} {w : ω}

/-! ### Runs -/

section ReadBy

variable {α : Type} {p : Rules → Parser α} {a : α}

variable (L) in
/-- A value that a production has read from one of the tokens of a text on. Whatever is nested in it
was read by good productions. -/
def ReadBy (w : ω) (p : Rules → Parser α) (a : α) : Prop :=
  ∃ (self : Rules) (b j : Nat) (c : Grammar.Cursor), L.Good b self ∧ b ≤ j + 1 ∧ j ≤ L.size ∧
    p self (L.input w) (L.cursor w j) = .ok (a, c)

/-- What a production says of all it reads is known of what it has read. -/
theorem ReadBy.elim {Q : Nat → (ω → α) → Nat → Prop} (h : L.ReadBy w p a)
    (hp : ∀ {self b j}, L.Good b self → b ≤ j + 1 → L.Reads (fun _ => p self) j (Q j)) :
    ∃ j x k, k ≤ L.size ∧ Q j x k ∧ x w = a := by
  obtain ⟨self, b, j, c, hself, hb, hj, hrun⟩ := h
  rcases hp hself hb hj with ⟨x, k, hk, hx, hok⟩ | ⟨e, he⟩
  · -- what is said of all runs is said of the one at hand, which ended well
    have heq := Except.ok.inj ((hok w).symm.trans hrun)
    exact ⟨j, x, k, hk, hx, congrArg Prod.fst heq⟩
  · have heq := (he w).1.symm.trans hrun
    cases heq

/-- All values that a good production reads are read by a run of it. -/
theorem Reads.readBy {Q : (ω → α) → Nat → Prop} (hp : L.Reads (fun _ => p self) j Q)
    (hself : L.Good b self) (hb : b ≤ j + 1) :
    L.Reads (fun _ => p self) j fun x k => Q x k ∧ ∀ w, L.ReadBy w p (x w) :=
  .of_le fun hj => hp.running (Q := fun w x _ => L.ReadBy w p x) fun _ _ c hrun =>
    ⟨self, b, j, c, hself, hb, hj, hrun⟩

end ReadBy

variable (L) in
/-- A declaration that a run of the production for it has read; any node that is no declaration. -/
def Traced (w : ω) : Node → Prop
  | .namespaceDecl d => L.ReadBy w namespaceDecl d
  | n => n.isDeclaration = true → L.ReadBy w member n

/-- Of what is no declaration nothing is asked. -/
theorem Traced.of_not_isDeclaration {n : Node} (hn : n.isDeclaration = false) : L.Traced w n := by
  cases n with
  | namespaceDecl => exact absurd hn (by simp [Node.isDeclaration])
  | _ => exact fun h => absurd (hn.symm.trans h) Bool.false_ne_true

/-- What a run for members has read is traced. -/
theorem Traced.of_readBy {n : Node} (h : L.ReadBy w member n) (hn : n.isTypeOrMember = true) :
    L.Traced w n := by
  cases n with
  | namespaceDecl => exact absurd hn Bool.false_ne_true
  | _ => exact fun _ => h

/-! ### Types -/

variable (L) in
/-- From the token at `j` on, a token is consumed and a type or a member is yielded in which all
declarations are traced. -/
def Traces (p : ω → Parser Node) (j : Nat) : Prop :=
  L.Reads p j fun n k => j < k ∧ ∀ w, (n w).isTypeOrMember = true ∧ (n w).Everywhere (L.Traced w)

/-- Below a traced type, its members have to be traced. -/
theorem everywhere_of_traces {n : Node} (hn : L.Traced w n)
    (hbelow : n.holdsDeclarations = true → ∀ c ∈ n.children, c.Everywhere (L.Traced w)) :
    n.Everywhere (L.Traced w) := by
  cases hholds : n.holdsDeclarations with
  | true => exact (Node.everywhere_iff_of_holds hholds).mpr ⟨hn, hbelow hholds⟩
  | false => exact (Node.everywhere_iff_of_not_holds hholds).mpr hn

end Layouts

namespace Grammar

variable (self : Rules) (h : Header) (t : TypeRef)

theorem isMember_delegateDecl : Returns (delegateDecl self h) (·.isMember = true) :=
  fun x c r hr => (returns_delegateDecl self h x c r hr).1

theorem isMember_plainMethod (name : String) (nameSpan : Span) (isOperator isDestructor : Bool) :
    Returns (plainMethod self h t name nameSpan isOperator isDestructor) (·.isMember = true) :=
  .bind fun _ => .bind fun _ => .bind fun _ => .pure rfl

theorem isMember_destructorDecl : Returns (destructorDecl self h) (·.isMember = true) :=
  .bind fun _ => .bind fun _ => isMember_plainMethod self h _ _ _ _ _

theorem isMember_operatorDecl : Returns (operatorDecl self h t) (·.isMember = true) :=
  .bind fun _ => .bind fun _ => .bind fun _ => .bind fun _ => isMember_plainMethod self h _ _ _ _ _

theorem isMember_conversionDecl : Returns (conversionDecl self h) (·.isMember = true) :=
  .bind fun _ => .bind fun _ => .bind fun _ => .bind fun _ => .bind fun _ =>
    isMember_plainMethod self h _ _ _ _ _

theorem isMember_constructorDecl : Returns (constructorDecl self h) (·.isMember = true) :=
  .bind fun _ => .bind fun _ => .bind fun _ => .bind fun _ => .bind fun _ => .pure rfl

theorem isMember_eventDecl : Returns (eventDecl self h) (·.isMember = true) :=
  .bind fun _ => .bind fun _ => .bind fun _ => .bind fun _ => .bind fun _ => .bind fun _ => .pure rfl

theorem isMember_typedMember : Returns (typedMember self h) (·.isMember = true) := by
  refine .bind fun t => .branch (isMember_operatorDecl self h t) (.bind fun _ => .bind fun _ => ?_)
  have hindexer (name : String) : Returns (indexerDecl self h t name) (·.isMember = true) :=
    fun x c r hr => (memberFrom_indexerDecl self h t name [] x c r hr).isMember
  refine .ite (hindexer "") (.bind fun _ => .bind fun a => .bind fun nameSpan => ?_)
  refine .bind fun _ => .bind fun _ => .ite (.bind fun _ => hindexer _) ?_
  refine .bind fun _ => .bind fun _ => .ite (.bind fun _ => .pure rfl) ?_
  refine .bind fun _ => .bind fun _ => .ite ?_ fun x c r hr => ?_
  · exact .bind fun _ => .bind fun _ => .bind fun _ => .pure rfl
  · exact (memberFrom_fieldRest self h t a.1 nameSpan [] x c r hr).isMember

end Grammar

namespace Layouts

variable {ω : Type} {L : Layouts ω} {i j k b : Nat} {self : Rules} {w : ω} {h : ω → Header}

section Types

variable (hmember : ∀ {j}, b ≤ j → L.Traces (fun _ => self.member) j)

include hmember in
/-- What stands in the braces of a type is traced. -/
theorem traces_typeBody (hb : b ≤ j + 1) (kind : TypeKind) (name : String) :
    L.Reads (fun _ => typeBody self kind name) j fun ms k =>
      j < k ∧ ∀ w, ∀ m ∈ ms w, m.Everywhere (L.Traced w) := by
  refine Reads.typeBody <| (Reads.repeatEach (Q := fun w m => m.Everywhere (L.Traced w))
    (fun _ _ => tests_isNot) fun k hk _ => Reads.unlessEnd rfl fun _ =>
      Reads.imp (hmember (by omega)) fun _ _ _ hread =>
        ⟨hread.1, fun w => (hread.2 w).2⟩).imp ?_
  rintro ms k - ⟨hk, hms⟩ l hl
  exact ⟨by omega, hms⟩

/-- What declares nothing need not be looked into. -/
theorem everywhere_traced_of_not_declares {n : Node} (hn : n.declares = false) :
    n.Everywhere (L.Traced w) :=
  (Node.everywhere_iff_of_not_holds (Bool.or_eq_false_iff.mp hn).2).mpr
    (.of_not_isDeclaration (Bool.or_eq_false_iff.mp hn).1)

include hmember in
theorem traces_typeContents (hself : L.Good b self) (hb : b ≤ j + 1) (kind : TypeKind)
    (name : String) :
    L.Reads (fun _ => typeContents self kind name) j fun contents k =>
      j < k ∧ ∀ w, ∀ m ∈ (contents w).1 ++ (contents w).2, m.Everywhere (L.Traced w) := by
  refine Reads.typeContents ((listed_enumMembers hself hb).imp ?_)
    ⟨Nat.lt_succ_self j, fun w => List.forall_mem_nil _⟩
    ((traces_typeBody hmember hb kind name).imp ?_)
  · rintro ms k - ⟨hk, hms⟩ l hl
    exact ⟨by omega, fun w m hm =>
      everywhere_traced_of_not_declares (Node.declares_of_isEnumMember (hms w m hm))⟩
  · rintro ms k - ⟨hk, hms⟩
    exact ⟨hk, fun w => by simpa using hms w⟩

include hmember in
/-- A type is traced if its members are. -/
theorem traced_typeDecl (hself : L.Good b self) (hb : b ≤ j + 1) (hj : j < L.size) :
    L.Reads (fun w => typeDecl self (h w)) j fun n _ => ∀ w, (n w).isTypeOrMember = true ∧
      ∀ c ∈ (n w).children, c.Everywhere (L.Traced w) := by
  refine (Reads.typeDecl (P := fun w contents => ∀ m ∈ contents.1 ++ contents.2,
    m.Everywhere (L.Traced w)) hself hb hj fun hk =>
      traces_typeContents hmember hself (by omega) _ _).imp fun n l _ hread w => ?_
  obtain ⟨t, -, hnode, hcontents, -⟩ := hread.2 w
  rw [hnode]
  refine ⟨rfl, fun c hc => ?_⟩
  obtain ⟨front, hchildren, hfront⟩ := Node.exists_children_typeDecl t
  rw [hchildren, List.append_assoc, List.mem_append] at hc
  rcases hc with hc | hc
  · exact everywhere_traced_of_not_declares (hfront c hc)
  · exact hcontents c (List.mem_append.mpr (List.mem_append.mp hc).symm)

end Types

/-- What holds of all types that are read, and of members of any other kind, holds of all that the
production for members reads. -/
theorem reads_member (hself : L.Good b self) (hb : b ≤ j + 1) {P : ω → Node → Prop}
    (htype : ∀ {h : ω → Header} {k : Nat}, j ≤ k → k < L.size →
      L.Reads (fun w => typeDecl self (h w)) k fun n _ => ∀ w, P w (n w))
    (hmember : ∀ w n, n.isMember = true → P w n) :
    L.Reads (fun _ => member self) j fun n _ => ∀ w, P w (n w) := by
  -- All other members are single nodes, so only the kind of node counts.
  have hother {p : ω → Parser Node} {i k : Nat} (hp : L.Yields i p k)
      (hreturns : ∀ w, Returns (p w) (·.isMember = true)) :
      L.Reads p k fun n _ => ∀ w, P w (n w) :=
    (Reads.returning hp hreturns).imp fun _ _ _ hread w => hmember w _ (hread.2 w)
  exact Reads.member (reads_header hself hb)
    (fun ⟨hk, hh⟩ => hother (yields_delegateDecl hself (by omega) hk hh)
      fun w => isMember_delegateDecl self _)
    (fun ⟨hk, _⟩ hj => htype hk hj)
    (fun ⟨hk, hh⟩ => hother (yields_destructorDecl hself (by omega) hk hh)
      fun w => isMember_destructorDecl self _)
    (fun ⟨hk, hh⟩ => hother (yields_eventDecl hself (by omega) hk hh)
      fun w => isMember_eventDecl self _)
    (fun ⟨hk, hh⟩ hj => hother (yields_conversionDecl hself (by omega) hk hh hj)
      fun w => isMember_conversionDecl self _)
    (fun ⟨hk, hh⟩ => hother (yields_constructorDecl hself (by omega) hk hh)
      fun w => isMember_constructorDecl self _)
    (fun ⟨hk, hh⟩ => hother (yields_typedMember hself (by omega) hk hh)
      fun w => isMember_typedMember self _)

section

variable (hmember : ∀ {j}, b ≤ j → L.Traces (fun _ => self.member) j)
include hmember

/-- Members are traced, since a run for members has read them. -/
theorem traces_member (hself : L.Good b self) (hb : b ≤ j + 1) [Nonempty ω] :
    L.Traces (fun _ => member self) j := by
  have hbelow := reads_member hself hb (P := fun w n => n.isTypeOrMember = true ∧
    (n.holdsDeclarations = true → ∀ c ∈ n.children, c.Everywhere (L.Traced w)))
    (fun hk hsize => (traced_typeDecl hmember hself (by omega) hsize).imp
      fun _ _ _ hread w => ⟨(hread w).1, fun _ => (hread w).2⟩)
    fun w n hn => ⟨Node.isTypeOrMember_of_isMember hn, fun hholds =>
      absurd (hholds.symm.trans (Node.holdsDeclarations_of_isMember hn)) (by simp)⟩
  refine ((Reads.and (yields_member hself hb) hbelow).readBy hself hb).imp fun n k _ hread => ?_
  obtain ⟨⟨⟨hk, -⟩, hbelow⟩, hrun⟩ := hread
  exact ⟨hk, fun w => ⟨(hbelow w).1,
    everywhere_of_traces (.of_readBy (hrun w) (hbelow w).1) (hbelow w).2⟩⟩

end

/-! ### Namespaces -/

variable (L) in
/-- From the token at `j` on, a token is consumed and a namespace is yielded in which all
declarations are traced. A file-scoped one has no members yet. -/
def TracesNamespace (p : Parser (NamespaceDecl Node)) (j : Nat) : Prop :=
  L.Reads (fun _ => p) j fun d k => j < k ∧ ∀ w,
    (Node.namespaceDecl (d w)).Everywhere (L.Traced w) ∧
      ((d w).fileScoped = true → (d w).members = [])

section Namespaces

variable (hmember : ∀ {j}, b ≤ j → L.Traces (fun _ => self.member) j)
  (hnamespace : ∀ {j}, b ≤ j → L.TracesNamespace self.namespaceDecl j)

include hmember hnamespace in
/-- The entries of a namespace are traced. -/
theorem traces_namespaceEntry (hself : L.Good b self) (hb : b ≤ j) (name : String) [Nonempty ω] :
    L.Reads (fun _ => namespaceEntry self name) j fun e k =>
      j < k ∧ ∀ w, ∀ n ∈ Layered.nodes (e w), n.Everywhere (L.Traced w) := by
  refine Reads.namespaceEntry ((yields_usingDirective hself (by omega)).imp ?_)
    ((Reads.and (hself.namespaceDecl hb) (hnamespace hb)).imp ?_)
    (Reads.typeLevelDecl hself (by omega)
      ((traces_member hmember hself (by omega)).imp ?_))
  · rintro d k - ⟨hk, -⟩
    exact ⟨hk, fun w => List.forall_mem_singleton.mpr
      ((Node.everywhere_iff_of_not_holds rfl).mpr (.of_not_isDeclaration rfl))⟩
  · rintro d k - ⟨⟨-, e, hd⟩, hk, htraced⟩
    exact ⟨⟨_, hd.fileScoped_eq⟩, hk, fun w => List.forall_mem_singleton.mpr (htraced w).1⟩
  · rintro d k - ⟨hk, htraced⟩
    exact ⟨hk, fun w => List.forall_mem_singleton.mpr (htraced w).2⟩

include hmember hnamespace in
/-- Namespaces are traced. -/
theorem traces_namespaceDecl (hself : L.Good b self) (hb : b ≤ j + 1) [Nonempty ω] :
    L.TracesNamespace (namespaceDecl self) j := by
  have hname : L.Reads (fun _ => qualifiedName) (j + 1) fun _ _ => True :=
    reads_qualifiedName.imp fun _ _ _ _ => trivial
  have hentries {k : Nat} (name : String) (hk : j < k) :
      L.Reads (fun _ => repeatWhile (isNot closeBrace)
        (unlessEnd (.unterminatedNamespace name) (namespaceEntry self name))) k fun es l =>
          k ≤ l ∧ ∀ w, ∀ e ∈ es w, ∀ n ∈ Layered.nodes e, n.Everywhere (L.Traced w) :=
    Reads.repeatEach (fun _ _ => tests_isNot) fun l hl _ => Reads.unlessEnd (by simp) fun _ =>
      traces_namespaceEntry hmember hnamespace hself (by omega) name
  have hbelow := Reads.namespaceDecl (N := fun _ => True)
    (E := fun _ _ es => ∀ w, ∀ e ∈ es w, ∀ n ∈ Layered.nodes e, n.Everywhere (L.Traced w))
    hname (fun _ _ => List.forall_mem_nil _) hentries
  refine (hbelow.readBy hself hb).imp ?_
  rintro d m - ⟨⟨-, k, l, es, hjk, hkl, hlm, hes, hholds⟩, hrun⟩
  refine ⟨by omega, fun w => ⟨(Node.everywhere_iff_of_holds rfl).mpr ⟨hrun w, fun c hc => ?_⟩,
    fun hscoped => ?_⟩⟩
  · obtain ⟨e, he, hc⟩ := List.mem_flatMap.mp ((hholds w).mem_nodes hc)
    exact hes w e he c hc
  · rw [(hholds w).members_eq, (hholds w).eq_nil hscoped]
    rfl

end Namespaces

/-! ### Nesting to any depth -/

/-- Productions that may be nested more often than tokens are left trace what they read. -/
theorem traces_rules {depth : Nat} (h : L.size < depth + b) [Nonempty ω] :
    (∀ {j}, b ≤ j → L.Traces (fun _ => (rules depth).member) j) ∧
      ∀ {j}, b ≤ j → L.TracesNamespace (rules depth).namespaceDecl j :=
  nested_rules (M := fun p j => L.Traces (fun _ => p) j) (N := fun p j => L.TracesNamespace p j)
    (fun hj => ⟨fun _ hle => absurd hle (by omega), fun _ hle => absurd hle (by omega)⟩)
    (fun hgood hmember hnamespace _ hj => ⟨traces_member hmember hgood (Nat.succ_le_succ hj),
      traces_namespaceDecl hmember hnamespace hgood (Nat.succ_le_succ hj)⟩) h

/-! ### Files -/

variable (L) in
/-- How a file comes to hold what stands in front of the token at an index. -/
inductive Grows (w : ω) : CompilationUnit Node → Nat → Prop
  | start (span : Span) : Grows w { span } 0
  | front {u j k} (usings attributes nullableEnabled) (hu : Grows w u j) (hjk : j ≤ k) :
      Grows w { u with usings, attributes, nullableEnabled } k
  | fileScoped {u j k} (ns : NamespaceDecl Node) (hu : Grows w u j) (hjk : j ≤ k)
      (hnone : u.fileScopedNamespace = none) (hempty : ns.members = [])
      (hfits : L.Fits w j k (.namespaceDecl ns))
      (htraced : (Node.namespaceDecl ns).Everywhere (L.Traced w)) :
      Grows w { u with fileScopedNamespace := some ns } k
  | block {u j k} (ns : NamespaceDecl Node) (hu : Grows w u j) (hjk : j ≤ k)
      (hfits : L.Fits w j k (.namespaceDecl ns))
      (htraced : (Node.namespaceDecl ns).Everywhere (L.Traced w)) :
      Grows w { u with members := u.members ++ [.namespaceDecl ns] } k
  | declared {u j k} (decl : Node) (hu : Grows w u j) (hjk : j ≤ k) (hfits : L.Fits w j k decl)
      (hdecl : decl.isDeclaration = true) (htraced : decl.Everywhere (L.Traced w)) :
      Grows w (addMember u decl) k

/-- All declarations of a file are traced while it grows, except for the file-scoped namespace, of
which only the front is read by one run. -/
theorem Grows.traced {u : CompilationUnit Node} (h : L.Grows w u k) :
    (∀ ns, u.fileScopedNamespace = some ns →
      ∀ c ∈ (Node.namespaceDecl ns).children, c.Everywhere (L.Traced w)) ∧
      ∀ m ∈ u.members, m.Everywhere (L.Traced w) := by
  -- Each entry is read by a run of its own, and is put behind those that have been read.
  induction h with
  | start => exact ⟨nofun, nofun⟩
  | front _ _ _ _ _ ih => exact ih
  | fileScoped ns _ _ _ _ _ htraced ih =>
    refine ⟨fun ns' hns => ?_, ih.2⟩
    obtain rfl := Option.some.inj hns
    exact ((Node.everywhere_iff_of_holds rfl).mp htraced).2
  | block ns _ _ _ htraced ih =>
    exact ⟨ih.1, List.forall_mem_append.mpr ⟨ih.2, List.forall_mem_singleton.mpr htraced⟩⟩
  | @declared u j k decl _ _ _ _ htraced ih =>
    have hdecl := List.forall_mem_singleton.mpr htraced
    unfold addMember
    split
    · next ns hns =>
      refine ⟨fun ns' hns' => ?_, ih.2⟩
      obtain rfl := Option.some.inj hns'
      rw [show (Node.namespaceDecl (gather ns decl)).children =
        (Node.namespaceDecl ns).children ++ [decl] by simp [Node.children, gather]]
      exact List.forall_mem_append.mpr ⟨ih.1 ns hns, hdecl⟩
    · exact ⟨ih.1, List.forall_mem_append.mpr ⟨ih.2, hdecl⟩⟩

section Files

variable (hmember : ∀ {j}, b ≤ j → L.Traces (fun _ => self.member) j)
  (hnamespace : ∀ {j}, b ≤ j → L.TracesNamespace self.namespaceDecl j)
  {u : ω → CompilationUnit Node}

include hmember hnamespace in
/-- A file grows by one entry at a time. -/
theorem grows_unitStep (hself : L.Good b self) (hb : b ≤ j + 1) (hlaid : L.UnitLaid u j)
    (hu : ∀ w, L.Grows w (u w) j) [Nonempty ω] :
    L.Reads (fun w => unitStep self (u w)) j
      (Perhaps (fun v k => ∀ w, L.Grows w (v w) k) (· = j)) := by
  refine .unitStep hlaid (fun k hk w => .front _ _ _ (hu w) (Nat.le_of_lt hk))
    ((yields_usingDirective hself hb).imp ?_)
    (fun hbracket => (yields_attributes hself hb hbracket).imp ?_)
    ((Reads.and (yields_namespaceDecl hself hb)
      (traces_namespaceDecl hmember hnamespace hself hb)).imp ?_)
    ((Reads.and (yields_typeLevelDecl hself hb)
      (Reads.typeLevelDecl hself hb (traces_member hmember hself hb))).imp ?_)
  · rintro d k - ⟨hk, -⟩ w
    exact .front _ _ _ (hu w) (Nat.le_of_lt hk)
  · rintro as k - ⟨hk, -⟩ w
    exact .front _ _ _ (hu w) (Nat.le_of_lt hk)
  · rintro d k - ⟨⟨hk, e, hd⟩, -, htraced⟩
    have hscoped := hd.fileScoped_eq
    have hfits (w : ω) := hd.fits w _ (List.mem_singleton.mpr rfl)
    refine ⟨_, hscoped, fun hdscoped hnone w => ?_, fun w => ?_⟩
    · exact .fileScoped _ (hu w) (Nat.le_of_lt hk) (hnone w)
        ((htraced w).2 ((hscoped w).trans hdscoped)) (hfits w) (htraced w).1
    · exact .block _ (hu w) (Nat.le_of_lt hk) (hfits w) (htraced w).1
  · rintro d k - ⟨⟨hk, e, hd⟩, -, htraced⟩ w
    exact .declared _ (hu w) (Nat.le_of_lt hk) (hd.fits w _ (List.mem_singleton.mpr rfl))
      (Node.isDeclaration_of_isTypeOrMember (htraced w).1) (htraced w).2

include hmember hnamespace in
/-- A file grows out of its entries. -/
theorem grows_unit (hself : L.Good b self) (hb : b ≤ 1) [Nonempty ω] :
    L.Reads (fun _ => unit self) 0 fun u k => ∀ w, L.Grows w (u w) k :=
  .unit hself hb (fun _ => .start _) fun hlaid hu =>
    grows_unitStep hmember hnamespace hself (by omega) hlaid hu

end Files

theorem grows_unitOfTokens (L : Layouts ω) (w : ω) {u : CompilationUnit Node}
    (h : unitOfTokens (L.source w) (L.tokens w) (L.eof w) = .ok u) : ∃ k, L.Grows w u k := by
  have : Nonempty ω := ⟨w⟩
  have hdepth : L.size < L.size + 1 + 0 := Nat.lt_succ_self L.size
  obtain ⟨hmember, hnamespace⟩ := traces_rules hdepth
  obtain ⟨v, k, rfl, hv⟩ := exists_of_unitOfTokens
    (grows_unit hmember hnamespace (good_rules hdepth) (Nat.zero_le 1)) h
  exact ⟨k, hv w⟩

end Layouts

/-- Each declaration of a file is traced, or it is the file-scoped namespace. -/
theorem Layouts.Grows.traced_of_mem {ω : Type} {L : Layouts ω} {w : ω} {k : Nat}
    {u : CompilationUnit Node} (h : L.Grows w u k) {d : Declared} (hd : d ∈ u.declarations) :
    L.Traced w d.node ∨ ∃ ns, u.fileScopedNamespace = some ns ∧ d.node = .namespaceDecl ns := by
  obtain ⟨hscoped, hmembers⟩ := h.traced
  have hmem := List.mem_map_of_mem (f := (·.node)) hd
  rw [CompilationUnit.map_node_declarations, List.mem_filter, Node.reached_eq] at hmem
  obtain ⟨hmem, hdecl⟩ := hmem
  rcases List.mem_cons.mp hmem with hroot | hmem
  · rw [hroot] at hdecl
    cases hdecl
  obtain ⟨c, hc, hmem⟩ := List.mem_flatMap.mp hmem
  -- Nodes that hold no declarations are traced as a whole.
  have hleaf (hholds : c.holdsDeclarations = false) (hnot : c.isDeclaration = false) :
      L.Traced w d.node :=
    (Node.everywhere_iff_of_not_holds hholds).mpr (.of_not_isDeclaration hnot) _ hmem
  rcases Layouts.mem_children_unit.mp hc with ⟨a, -, rfl⟩ | ⟨d', -, rfl⟩ | ⟨ns, hns, rfl⟩ | hc
  · exact .inl (hleaf rfl rfl)
  · exact .inl (hleaf rfl rfl)
  · rw [Node.reached_eq] at hmem
    rcases List.mem_cons.mp hmem with hnode | hmem
    · exact .inr ⟨ns, hns, hnode⟩
    · obtain ⟨c, hc, hmem⟩ := List.mem_flatMap.mp hmem
      exact .inl (hscoped ns hns c hc _ hmem)
  · exact .inl (hmembers c hc _ hmem)

/-- A parsed file has grown out of its entries. -/
theorem grows_of_parse {source : List UInt8} {u : CompilationUnit Node}
    (h : parse source = .ok u) : ∃ (tokens : List Token) (nullable : Bool)
      (hlex : lex source = .ok (tokens, nullable)) (k : Nat),
        (Layouts.ofLex hlex).Grows () u k := by
  obtain ⟨tokens, nullable, v, hlex, hv, rfl⟩ := exists_unitOfTokens_of_parse h
  obtain ⟨k, hgrows⟩ := (Layouts.ofLex hlex).grows_unitOfTokens () hv
  exact ⟨tokens, nullable, hlex, k, .front _ _ nullable hgrows (Nat.le_refl k)⟩

end CSharpAudit
