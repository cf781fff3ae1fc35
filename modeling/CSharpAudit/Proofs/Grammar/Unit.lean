import CSharpAudit.Grammar.Unit
import CSharpAudit.Proofs.Grammar.Declaration

/-!
# Files in all layouts

## Main results

* `Layouts.yields_namespaceDecl` — a namespace
* `Layouts.Reads.namespaceDecl`, `Layouts.Reads.unitStep`, `Layouts.Reads.unit` — namespaces and
  files, for whatever is to be known of them
* `Layouts.reads_unit` — a file
* `Layouts.good_rules` — the productions nested to a depth read what they should from an index on if
  there are not more tokens behind it than the depth
* `Layouts.nested_rules` — what is known of one level of nesting is known of any depth
-/

namespace CSharpAudit

open Grammar

attribute [local simp] frames_iff Layered.nodes Layered.erase NodeKind.node NodeKind.erase
  Node.nodesBelow Node.children Node.unvisitedNodes Node.span Node.Synthesises Node.ChainedInside
  Node.erase flatMap_singleton_eq_map

instance : Layered Grammar.Entry where
  nodes
    | .directive d => Layered.nodes d
    | .member n => Layered.nodes n
  erase
    | .directive d => .directive (Layered.erase d)
    | .member n => .member (Layered.erase n)

instance : Layered (CompilationUnit Node) where
  nodes u := Node.nodesBelow (.unit u)
  erase := CompilationUnit.erase

namespace Layouts

variable {ω : Type} {L : Layouts ω} {i j k b : Nat} {self : Rules}

/-! ### Directives -/

/-- The target of a directive is the same in all layouts. -/
theorem uniform_usingTarget (hself : L.Good b self) (hb : b ≤ j + 1) :
    L.Reads (fun _ => usingTarget self) j fun a k => j < k ∧ Uniform a := by
  simp only [usingTarget, reads_isIdent, reads_peekIs, reads_ite, Bool.and_eq_true]
  refine ⟨fun h => ?_, fun _ => ?_⟩
  · have hj := L.lt_size_of_is h.2
    simp only [reads_discard, reads_advance (Nat.lt_of_succ_lt hj), reads_advance hj, token_text]
    refine (yields_type hself (by omega)).bind fun t c k hk ht => ?_
    have htext (w : ω) : (t w).text = c.text := by
      rw [← ht.erase w]
      exact (TypeRef.text_erase _).symm
    simp only [htext]
    exact .pure fun _ => ⟨by omega, _, rfl⟩
  · refine reads_qualifiedName.bindUniform fun name k hk => ?_
    exact .pure fun _ => ⟨hk, _, rfl⟩

theorem yields_usingDirective (hself : L.Good b self) (hb : b ≤ j + 1) :
    L.Yields j (fun _ => usingDirective self) j := by
  simp only [Yields, usingDirective, reads_offset]
  refine uniform_acceptWord.bindUniform fun isGlobal k hk => ?_
  simp only [reads_discard, reads_expect]
  intro _
  refine uniform_accept.bindUniform fun isStatic l hl => ?_
  refine (uniform_usingTarget hself (by omega)).bindUniform fun target m hm => ?_
  simp only [reads_discard, reads_expect, reads_spanFrom]
  exact fun _ => .pure fun hm' => ⟨by omega, _, Laid.unit.frame (fun span _ =>
    { span, name := target.2, aliasName := target.1, isStatic, isGlobal : UsingDirective })
    (by simp [UsingDirective.erase]) (by omega) hm'⟩

/-! ### Namespaces -/

theorem tests_atUsingDirective : L.Tests atUsingDirective j j True := by
  rw [Tests, reads_iff_bind_pure]
  simp only [atUsingDirective, bind_assoc, pure_bind, reads_isWord, reads_is, reads_peekIs]
  exact tests_pure.imp fun _ => trivial

/-- All layouts of a text agree on whether a namespace is file-scoped. -/
theorem Laid.fileScoped_eq {d : ω → NamespaceDecl Node} {e : NamespaceDecl Node}
    (h : L.Laid j k d e) (w : ω) : (d w).fileScoped = e.fileScoped := by
  rw [← h.erase w]
  cases d w
  rfl

/-- What is to be known of the entries of a namespace is known if it is of those of each kind. -/
theorem Reads.namespaceEntry {name : String} {Q : (ω → Grammar.Entry) → Nat → Prop}
    (husing : L.Reads (fun _ => Grammar.usingDirective self) j
      fun d k => Q (fun w => .directive (d w)) k)
    (hnamespace : L.Reads (fun _ => self.namespaceDecl) j fun d k =>
      (∃ forFile, ∀ w, (d w).fileScoped = forFile) ∧ Q (fun w => .member (.namespaceDecl (d w))) k)
    (hdecl : L.Reads (fun _ => Grammar.typeLevelDecl self) j
      fun d k => Q (fun w => .member (d w)) k) :
    L.Reads (fun _ => Grammar.namespaceEntry self name) j Q := by
  refine Reads.bind tests_atUsingDirective fun c k hc => ?_
  rcases hc with ⟨rfl, rfl, -⟩ | ⟨rfl, rfl⟩
  · exact husing.bind fun d k hd => .pure fun _ => hd
  simp only [Bool.false_eq_true, if_false, reads_is, reads_ite]
  refine ⟨fun _ => ?_, fun _ => hdecl.bind fun d k hd => .pure fun _ => hd⟩
  refine hnamespace.bind ?_
  rintro d k ⟨⟨forFile, hscoped⟩, hd⟩
  simp only [hscoped]
  rw [reads_ite]
  exact ⟨fun _ => reads_fail_bind (by simp), fun _ => .pure fun _ => hd⟩

/-- A directive or a declaration in a namespace is laid where it is read. -/
theorem yields_namespaceEntry (hself : L.Good b self) (hb : b ≤ j) (name : String) :
    L.Yields j (fun _ => namespaceEntry self name) j := by
  refine Reads.namespaceEntry ((yields_usingDirective hself (by omega)).imp ?_)
    ((hself.namespaceDecl hb).imp ?_) ((yields_typeLevelDecl hself (by omega)).imp ?_)
  · rintro d k - ⟨hk, e, hd⟩
    exact ⟨hk, .directive e, hd.fits, fun w => by simp [← hd.erase w]⟩
  · rintro d k - ⟨hk, e, hd⟩
    exact ⟨⟨_, hd.fileScoped_eq⟩, hk, .member (.namespaceDecl e), hd.fits,
      fun w => by simp [← hd.erase w]⟩
  · rintro d k - ⟨hk, e, hd⟩
    exact ⟨hk, .member e, hd.fits, fun w => by simp [← hd.erase w]⟩

/-- A namespace holds what was read in it. -/
theorem mem_nodes_contents {es : List Grammar.Entry} {n : Node}
    (h : n ∈ Layered.nodes ((Contents.ofEntries es).usings, (Contents.ofEntries es).members)) :
    n ∈ Layered.nodes es := by
  induction es with
  | nil => exact h
  | cons e es ih => cases e <;> simp_all [Contents.ofEntries] <;> grind

/-- Erasing the entries of a namespace erases what it holds. -/
theorem erase_contents (es : List Grammar.Entry) :
    Layered.erase ((Contents.ofEntries es).usings, (Contents.ofEntries es).members) =
      ((Contents.ofEntries (Layered.erase es)).usings,
        (Contents.ofEntries (Layered.erase es)).members) := by
  induction es with
  | nil => rfl
  | cons e es ih => cases e <;> simp_all [Contents.ofEntries]

/-- A namespace is laid with its entries, though it lists them by their kind. -/
theorem yields_namespaceDecl (hself : L.Good b self) (hb : b ≤ j + 1) :
    L.Yields j (fun _ => namespaceDecl self) j := by
  simp only [Yields, namespaceDecl, reads_offset, reads_discard, reads_expect]
  intro _
  refine reads_qualifiedName.bindUniform fun name k hk => ?_
  rw [reads_spanFrom, reads_accept]
  refine ⟨fun _ => ?_, fun _ => ?_⟩
  · simp only [if_true, reads_spanFrom]
    exact .pure fun hk' => ⟨by omega, _, (Laid.span _).frame
      (fun span nameSpan => { span, name, nameSpan, fileScoped := true : NamespaceDecl Node })
      (by simp [Node.eraseNamespace]) (by omega) hk'⟩
  simp only [Bool.false_eq_true, if_false, reads_discard, reads_expect]
  intro _
  refine (Allows.repeatWhile (fun _ _ => tests_isNot) fun l hl _ =>
    (yields_namespaceEntry hself (by omega) name).unlessEnd (by simp)).bind
    fun entries es l hl hes => ?_
  simp only [reads_discard, reads_expect]
  intro _
  refine uniform_accept.bindUniform fun _ m hm => ?_
  rw [reads_spanFrom]
  -- The entries are laid in the order of the text, so they stay inside when they are sorted by
  -- kind.
  have hcontents := hes.map (f := fun es =>
    ((Contents.ofEntries es).usings, (Contents.ofEntries es).members))
    (fun w x hx n hn => hx n (mem_nodes_contents hn)) erase_contents
  have hspan : L.Laid (k + 1) l _ _ := .span fun w => ⟨L.start w (j + 1), L.behind w k⟩
  exact .pure fun hm' => ⟨by omega, _, ((hspan.pair hcontents).mono (by omega) (by omega)).frame
    (fun span x => { span, name, nameSpan := x.1, usings := x.2.1, members := x.2.2 :
      NamespaceDecl Node }) (by simp [Node.eraseNamespace]) (by omega) hm'⟩

/-- A namespace that holds what some entries are; a file-scoped one has none yet. -/
structure HoldsEntries (d : NamespaceDecl Node) (es : List Grammar.Entry) : Prop where
  usings_eq : d.usings = (Contents.ofEntries es).usings
  members_eq : d.members = (Contents.ofEntries es).members
  eq_nil : d.fileScoped = true → es = []

/-- Whatever a namespace lists was one of its entries. -/
theorem HoldsEntries.mem_nodes {d : NamespaceDecl Node} {es : List Grammar.Entry}
    (h : HoldsEntries d es) {c : Node} (hc : c ∈ (Node.namespaceDecl d).children) :
    c ∈ Layered.nodes es := by
  refine mem_nodes_contents ?_
  simpa [← h.usings_eq, ← h.members_eq] using hc

/-- What is to be known of a namespace is known if it is of its name and of the loop over its
entries. -/
theorem Reads.namespaceDecl {N : (ω → String) → Prop}
    {E : Nat → Nat → (ω → List Grammar.Entry) → Prop} [Nonempty ω]
    (hname : L.Reads (fun _ => Grammar.qualifiedName) (j + 1) fun a _ => N a)
    (hnil : ∀ k, E k k fun _ => [])
    (hentries : ∀ {k} name, j < k → L.Reads (fun _ => Grammar.repeatWhile (isNot closeBrace)
      (Grammar.unlessEnd (.unterminatedNamespace name) (Grammar.namespaceEntry self name))) k
        fun es l => k ≤ l ∧ E k l es) :
    L.Reads (fun _ => Grammar.namespaceDecl self) j fun d m => N (fun w => (d w).name) ∧
      ∃ k l es, j < k ∧ k ≤ l ∧ l ≤ m ∧ E k l es ∧ ∀ w, HoldsEntries (d w) (es w) := by
  simp only [Grammar.namespaceDecl, reads_offset, reads_discard, reads_expect]
  intro _
  refine (Reads.and reads_qualifiedName hname).bind ?_
  rintro - k ⟨⟨hk, name, rfl⟩, hname⟩
  rw [reads_spanFrom, reads_accept]
  refine ⟨fun _ => ?_, fun _ => ?_⟩
  · simp only [if_true, reads_spanFrom]
    exact .pure fun _ => ⟨hname, k, k, fun _ => [], by omega, Nat.le_refl k, Nat.le_succ k, hnil k,
      fun _ => ⟨rfl, rfl, fun _ => rfl⟩⟩
  simp only [Bool.false_eq_true, if_false, reads_discard, reads_expect]
  -- Only a namespace with braces has entries of its own.
  intro _
  refine (hentries name (by omega)).bind ?_
  rintro es l ⟨hl, hes⟩
  simp only [reads_discard, reads_expect]
  refine fun _ => uniform_accept.bindUniform fun _ m hm => ?_
  rw [reads_spanFrom]
  exact .pure fun _ => ⟨hname, k + 1, l, es, by omega, hl, by omega, hes,
    fun _ => ⟨rfl, rfl, fun h => absurd h Bool.false_ne_true⟩⟩

/-! ### Files -/

theorem tests_atGlobalAttribute :
    L.Tests atGlobalAttribute j j ((L.lexeme j).is "[" = true) := by
  rw [Tests, reads_iff_bind_pure]
  simp only [atGlobalAttribute, bind_assoc, pure_bind, reads_peek, token_text, reads_is,
    reads_peekIs]
  exact tests_pure.imp fun h => by simp_all

variable (L) in
/-- A file that covers the whole text and whose entries are laid before the token at `k`. -/
def UnitLaid (u : ω → CompilationUnit Node) (k : Nat) : Prop :=
  (∀ w, (u w).span = ⟨0, (L.source w).length⟩) ∧ ∃ c, L.Laid 0 k u c

variable {α : Type} [Layered α] {u : ω → CompilationUnit Node} {d : ω → α} {e : α}

/-- All layouts of a text agree on whether a file-scoped namespace came before. -/
theorem UnitLaid.isSome_fileScopedNamespace (h : L.UnitLaid u j) :
    ∃ came, ∀ w, (u w).fileScopedNamespace.isSome = came := by
  obtain ⟨-, c, hc⟩ := h
  exact ⟨c.fileScopedNamespace.isSome, fun w => by simp [← hc.erase w, CompilationUnit.erase_eq]⟩

/-- A file that is laid up to a token is laid up to later ones. -/
theorem UnitLaid.mono (h : L.UnitLaid u j) (hjk : j ≤ k) : L.UnitLaid u k := by
  obtain ⟨hspan, c, hc⟩ := h
  exact ⟨hspan, c, hc.mono (Nat.le_refl 0) hjk⟩

/-- A file goes on being laid when it grows by what is read behind its entries. -/
theorem UnitLaid.grow (hu : L.UnitLaid u j) (hd : L.Laid j k d e) (hjk : j ≤ k)
    (grow : CompilationUnit Node → α → CompilationUnit Node)
    (hspan : ∀ u d, (grow u d).span = u.span)
    (hnodes : ∀ u d, ∀ n ∈ Layered.nodes (grow u d), n ∈ Layered.nodes (u, d))
    (herase : ∀ u d, (grow u d).erase = grow u.erase (Layered.erase d)) :
    L.UnitLaid (fun w => grow (u w) (d w)) k := by
  obtain ⟨hcovers, c, hc⟩ := hu
  refine ⟨fun w => by rw [hspan, hcovers], grow c e, ?_⟩
  exact (hc.andThen hd (Nat.zero_le j) hjk).map (f := fun x => grow x.1 x.2)
    (fun w x hx n hn => hx n (hnodes x.1 x.2 n hn)) fun x => herase x.1 x.2

/-- What is gathered in a namespace may be erased first. -/
theorem erase_gather (ns : NamespaceDecl Node) (decl : Node) :
    Node.eraseNamespace (gather ns decl) = gather (Node.eraseNamespace ns) decl.erase := by
  obtain ⟨span, name, nameSpan, usings, members, fileScoped⟩ := ns
  have hstop : decl.erase.span.stop = 0 := by rw [Node.span_erase]; rfl
  rw [gather, gather, Node.eraseNamespace, Node.eraseNamespace, hstop]
  simp [Span.none]

/-- Gathering adds nothing but the declaration. -/
theorem mem_nodesBelow_gather {ns : NamespaceDecl Node} {decl n : Node}
    (hn : n ∈ (Node.namespaceDecl (gather ns decl)).nodesBelow) :
    n ∈ (Node.namespaceDecl ns).nodesBelow ∨ n = decl := by
  simp only [gather, Node.nodesBelow, Node.children, Node.unvisitedNodes, List.append_nil,
    ← List.append_assoc] at hn ⊢
  exact (List.mem_append.mp hn).imp_right List.mem_singleton.mp

/-- A namespace with a declaration behind it fits where both of them do. -/
theorem Fits.gather {w : ω} {ns : NamespaceDecl Node} {decl : Node}
    (hns : L.Fits w i j (.namespaceDecl ns)) (hdecl : L.Fits w j k decl) :
    L.Fits w i k (.namespaceDecl (gather ns decl)) := by
  -- the declaration starts behind the namespace, so the namespace only grows
  have hstart : ns.span.stop ≤ decl.span.start := calc
    ns.span.stop ≤ L.behind w j := hns.stop_le
    _ ≤ L.start w j := L.behind_le_start w j
    _ ≤ decl.span.start := hdecl.start_le
  have hns' : ns.span.start < ns.span.stop := hns.start_lt_stop
  have hdecl' : decl.span.start < decl.span.stop := hdecl.start_lt_stop
  refine ⟨hns.start_le, ?_, hdecl.stop_le, ?_⟩
  · show ns.span.start < decl.span.stop
    omega
  cases hns.nested with
  | intro inside chained below =>
    refine .intro (fun c hc => .inr ?_) trivial fun c hc => ?_
    · rcases mem_nodesBelow_gather hc with hc | rfl
      · obtain ⟨hne, hle, hge⟩ := (inside c hc).resolve_left id
        exact ⟨hne, hle, Nat.le_trans hge (Nat.le_trans hstart (Nat.le_of_lt hdecl'))⟩
      · exact ⟨hdecl', Nat.le_trans (Nat.le_of_lt hns') hstart, Nat.le_refl _⟩
    · rcases mem_nodesBelow_gather hc with hc | rfl
      · exact below c hc
      · exact hdecl.nested

/-- A file keeps its span when it grows. -/
theorem span_addMember (u : CompilationUnit Node) (decl : Node) :
    (addMember u decl).span = u.span := by
  unfold addMember
  split <;> rfl

theorem erase_addMember (u : CompilationUnit Node) (decl : Node) :
    (addMember u decl).erase = addMember u.erase decl.erase := by
  obtain ⟨span, usings, fileScopedNamespace, members, as, nullable⟩ := u
  cases fileScopedNamespace with
  | none => simp [addMember, CompilationUnit.erase_eq]
  | some ns => simp [addMember, CompilationUnit.erase_eq, erase_gather]

/-- Nothing but the declaration is added to a file, or to a namespace of it. -/
theorem mem_nodesBelow_addMember {u : CompilationUnit Node} {decl n : Node}
    (hn : n ∈ (Node.unit (addMember u decl)).nodesBelow) :
    n ∈ (Node.unit u).nodesBelow ∨ n = decl ∨
      ∃ ns, .namespaceDecl ns ∈ (Node.unit u).nodesBelow ∧ n = .namespaceDecl (gather ns decl) := by
  obtain ⟨span, usings, fileScopedNamespace, members, as, nullable⟩ := u
  cases fileScopedNamespace with
  | none =>
    simp [addMember] at hn ⊢
    grind
  | some ns =>
    simp [addMember] at hn ⊢
    grind

/-- A file goes on being laid when a declaration is added that is read behind its entries. -/
theorem UnitLaid.addMember {decl : ω → Node} {e : Node} (hu : L.UnitLaid u j)
    (hdecl : L.Laid j k decl e) (hjk : j ≤ k) :
    L.UnitLaid (fun w => Grammar.addMember (u w) (decl w)) k := by
  obtain ⟨hspan, c, hc⟩ := hu
  refine ⟨fun w => by rw [span_addMember, hspan], Grammar.addMember c e, fun w n hn => ?_,
    fun w => ?_⟩
  · have hfits : L.Fits w j k (decl w) := hdecl.fits w _ (List.mem_singleton.mpr rfl)
    rcases mem_nodesBelow_addMember hn with hn | rfl | ⟨ns, hns, rfl⟩
    · exact (hc.fits w n hn).mono (Nat.le_refl 0) hjk
    · exact hfits.mono (Nat.zero_le j) (Nat.le_refl k)
    · exact (hc.fits w _ hns).gather hfits
  · rw [← hc.erase w, ← hdecl.erase w]
    exact erase_addMember _ _

theorem tests_notSemicolon :
    L.Tests (do return !(← is ";") && !(← atEnd)) j j ((L.lexeme j).kind ≠ .eof) := by
  rw [Tests, reads_iff_bind_pure]
  simp only [bind_assoc, pure_bind, reads_is, reads_atEnd]
  exact tests_pure.imp (by simp)

theorem reads_externAlias :
    L.Reads (fun _ => repeatWhile (do return !(← is ";") && !(← atEnd)) advance) j
      fun _ k => j ≤ k := by
  refine (Allows.repeatWhile (fun _ _ => tests_notSemicolon) fun k _ hk => ?_).imp fun _ _ _ h => h.1
  rw [Yields, reads_iff_bind_pure, reads_advance (L.lt_size_of_kind hk)]
  exact .pure fun _ => ⟨Nat.lt_succ_self k, _, .token k⟩

/-- What is to be known of a file behind each of its entries is known if it is behind an entry of
each kind. -/
theorem Reads.unitStep {Q : (ω → CompilationUnit Node) → Nat → Prop} (hu : L.UnitLaid u j)
    (halias : ∀ k, j < k → Q u k)
    (husing : L.Reads (fun _ => usingDirective self) j fun d k =>
      Q (fun w => { u w with usings := (u w).usings ++ [d w] }) k)
    (hattributes : (L.lexeme j).is "[" = true → L.Reads (fun _ => attributes self) j fun as k =>
      Q (fun w => { u w with attributes := (u w).attributes ++ as w }) k)
    (hnamespace : L.Reads (fun _ => Grammar.namespaceDecl self) j fun d k => ∃ forFile,
      (∀ w, (d w).fileScoped = forFile) ∧
        (forFile = true → (∀ w, (u w).fileScopedNamespace = none) →
          Q (fun w => { u w with fileScopedNamespace := some (d w) }) k) ∧
        Q (fun w => { u w with members := (u w).members ++ [.namespaceDecl (d w)] }) k)
    (hdecl : L.Reads (fun _ => Grammar.typeLevelDecl self) j fun d k =>
      Q (fun w => Grammar.addMember (u w) (d w)) k) :
    L.Reads (fun w => Grammar.unitStep self (u w)) j (Perhaps Q (· = j)) := by
  simp only [Grammar.unitStep, reads_atEnd, reads_ite]
  -- the kinds of entries, in the order in which the parser tells them apart
  refine ⟨fun _ => .pure fun _ => .none rfl, fun _ => ?_⟩
  simp only [reads_is, reads_peek, token_text, reads_ite]
  refine ⟨fun _ => ?_, fun _ => ?_⟩
  · rw [reads_discard]
    refine reads_externAlias.bind fun _ k hk => ?_
    rw [reads_discard, reads_expect]
    exact fun _ => .pure fun _ => .some (halias _ (by omega))
  refine Reads.bind tests_atUsingDirective fun c k hc => ?_
  rcases hc with ⟨rfl, rfl, -⟩ | ⟨rfl, rfl⟩
  · exact husing.bind fun d k hd => .pure fun _ => .some hd
  simp only [Bool.false_eq_true, if_false]
  refine Reads.bind tests_atGlobalAttribute fun c k hc => ?_
  rcases hc with ⟨rfl, rfl, hbracket⟩ | ⟨rfl, rfl⟩
  · exact (hattributes hbracket).bind fun as k has => .pure fun _ => .some has
  simp only [Bool.false_eq_true, if_false, reads_is, reads_ite]
  refine ⟨fun _ => ?_, fun _ => hdecl.bind fun d k hd => .pure fun _ => .some hd⟩
  refine hnamespace.bind ?_
  rintro d k ⟨forFile, hscoped, hfile, hblock⟩
  -- Whether a file-scoped namespace was read before is the same in all layouts.
  obtain ⟨repeated, hrepeated⟩ := hu.isSome_fileScopedNamespace
  simp only [hscoped, hrepeated, reads_ite]
  refine ⟨fun hd => ⟨fun _ => reads_fail_bind (by simp), fun hfirst => ?_⟩,
    fun _ => .pure fun _ => .some hblock⟩
  exact .pure fun _ => .some (hfile hd fun w => by simpa [← hrepeated w] using hfirst)

/-- One more entry keeps a file laid. -/
theorem reads_unitStep (hself : L.Good b self) (hb : b ≤ j + 1) (hu : L.UnitLaid u j) :
    L.Reads (fun w => unitStep self (u w)) j
      (Perhaps (fun v k => j < k ∧ L.UnitLaid v k) (· = j)) := by
  refine .unitStep hu (fun k hk => ⟨hk, hu.mono (Nat.le_of_lt hk)⟩)
    ((yields_usingDirective hself hb).imp ?_)
    (fun hbracket => (yields_attributes hself hb hbracket).imp ?_)
    ((yields_namespaceDecl hself hb).imp ?_) ((yields_typeLevelDecl hself hb).imp ?_)
  · rintro d k - ⟨hk, e, hd⟩
    exact ⟨hk, hu.grow hd (Nat.le_of_lt hk) (fun u d => { u with usings := u.usings ++ [d] })
      (fun _ _ => rfl) (by simp; grind) (by simp [CompilationUnit.erase_eq])⟩
  · rintro as k - ⟨hk, cs, has⟩
    exact ⟨hk, hu.grow has (Nat.le_of_lt hk)
      (fun u as => { u with attributes := u.attributes ++ as })
      (fun _ _ => rfl) (by simp; grind) (by simp [CompilationUnit.erase_eq])⟩
  -- The parser decides by a flag whether this is the namespace of the file, so both are shown.
  · rintro d k - ⟨hk, e, hd⟩
    refine ⟨_, hd.fileScoped_eq, fun _ _ => ⟨hk, ?_⟩, hk, ?_⟩
    · exact hu.grow hd (Nat.le_of_lt hk) (fun u ns => { u with fileScopedNamespace := some ns })
        (fun _ _ => rfl) (by simp; grind) (by simp [CompilationUnit.erase_eq])
    · exact hu.grow hd (Nat.le_of_lt hk)
        (fun u ns => { u with members := u.members ++ [.namespaceDecl ns] })
        (fun _ _ => rfl) (by simp) (by simp [CompilationUnit.erase_eq])
  · rintro d k - ⟨hk, e, hd⟩
    exact ⟨hk, hu.addMember hd (Nat.le_of_lt hk)⟩

/-- A file is laid from its first token to its last. -/
theorem reads_unit (hself : L.Good b self) (hb : b ≤ 1) :
    L.Reads (fun _ => unit self) 0 L.UnitLaid := by
  simp only [unit, reads_read]
  refine (Reads.extend (P := L.UnitLaid) (fun u k _ hu => reads_unitStep hself (by omega) hu)
    ?_).imp fun _ _ _ h => h.2
  exact ⟨fun _ => rfl, { span := .none }, by simp, fun _ => by simp [CompilationUnit.erase_eq]⟩

/-- What holds of a file without entries, and behind each step if it did before, holds of the whole
file. -/
theorem Reads.unit {P : (ω → CompilationUnit Node) → Nat → Prop} [Nonempty ω]
    (hself : L.Good b self) (hb : b ≤ 1)
    (hstart : P (fun w => { span := ⟨0, (L.source w).length⟩ }) 0)
    (hstep : ∀ {u j}, L.UnitLaid u j → P u j →
      L.Reads (fun w => Grammar.unitStep self (u w)) j (Perhaps P (· = j))) :
    L.Reads (fun _ => Grammar.unit self) 0 P := by
  simp only [Grammar.unit, reads_read]
  refine (Reads.extend (P := fun u k => L.UnitLaid u k ∧ P u k) (fun u k _ hu => ?_)
    ⟨⟨fun _ => rfl, { span := .none }, by simp, fun _ => by simp [CompilationUnit.erase_eq]⟩,
      hstart⟩).imp fun _ _ _ h => h.2.2
  refine (Reads.and (reads_unitStep hself (by omega) hu.1) (hstep hu.1 hu.2)).imp fun o l _ ho => ?_
  refine (ho.1.and ho.2).imp_right ?_
  rintro ⟨v, hv, ⟨hl, hlaid⟩, hP⟩
  exact ⟨v, hv, hl, hlaid, hP⟩

/-! ### Nesting to any depth -/

/-- Productions that read nested constructs as they should from an index on do so one token
earlier when they are nested once more. -/
theorem Good.deepen (h : L.Good (b + 1) self) : L.Good b self.deepen where
  type hj := yields_type h (Nat.succ_le_succ hj)
  expr hj := yields_expr h (Nat.succ_le_succ hj)
  unary hj := yields_unary h (Nat.succ_le_succ hj)
  binary hj := yields_binary h (Nat.succ_le_succ hj) _
  pattern hj := yields_pattern h (Nat.succ_le_succ hj)
  primaryPattern hj := yields_primaryPattern h (Nat.succ_le_succ hj)
  initializer hj := reads_initializer h (Nat.succ_le_succ hj)
  block hj := yields_block h (Nat.succ_le_succ hj)
  statement hj := yields_statement h (Nat.succ_le_succ hj)
  member hj := yields_member h (Nat.succ_le_succ hj)
  namespaceDecl hj := yields_namespaceDecl h (Nat.succ_le_succ hj)

/-- Behind the end of the file nothing is read, so any productions will do. -/
theorem good_of_size_lt (h : L.size < b) : L.Good b self where
  type hj hle := absurd hle (by omega)
  expr hj hle := absurd hle (by omega)
  unary hj hle := absurd hle (by omega)
  binary hj hle := absurd hle (by omega)
  pattern hj hle := absurd hle (by omega)
  primaryPattern hj hle := absurd hle (by omega)
  initializer hj hle := absurd hle (by omega)
  block hj hle := absurd hle (by omega)
  statement hj hle := absurd hle (by omega)
  member hj hle := absurd hle (by omega)
  namespaceDecl hj hle := absurd hle (by omega)

/-- One more level of nesting. -/
theorem rules_succ (depth : Nat) : rules (depth + 1) = (rules depth).deepen := rfl

/-- Productions that may be nested more often than tokens are left read all nested constructs. -/
theorem good_rules {depth : Nat} (h : L.size < depth + b) : L.Good b (rules depth) := by
  induction depth generalizing b with
  | zero => exact good_of_size_lt (by omega)
  | succ depth ih =>
    rw [rules_succ]
    exact (ih (by omega)).deepen

/-- What is known of members and namespaces one level deeper if it is known of those behind their
first token is known of members and namespaces nested more often than tokens are left. -/
theorem nested_rules {M : Parser Node → Nat → Prop} {N : Parser (NamespaceDecl Node) → Nat → Prop}
    (hpast : ∀ {j}, L.size < j → (∀ p, M p j) ∧ ∀ p, N p j)
    (hstep : ∀ {b depth}, L.Good (b + 1) (rules depth) →
      (∀ {j}, b + 1 ≤ j → M (rules depth).member j) →
      (∀ {j}, b + 1 ≤ j → N (rules depth).namespaceDecl j) → ∀ {j}, b ≤ j →
        M (member (rules depth)) j ∧ N (namespaceDecl (rules depth)) j)
    {depth : Nat} (h : L.size < depth + b) :
    (∀ {j}, b ≤ j → M (rules depth).member j) ∧
      ∀ {j}, b ≤ j → N (rules depth).namespaceDecl j := by
  induction depth generalizing b with
  -- at depth zero no token is left to read anything from
  | zero => exact ⟨fun hj => (hpast (by omega)).1 _, fun hj => (hpast (by omega)).2 _⟩
  | succ depth ih =>
    obtain ⟨hmember, hnamespace⟩ := ih (b := b + 1) (by omega)
    have hgood : L.Good (b + 1) (rules depth) := good_rules (by omega)
    have hnested {j : Nat} (hj : b ≤ j) := hstep hgood hmember hnamespace hj
    rw [rules_succ]
    exact ⟨fun hj => (hnested hj).1, fun hj => (hnested hj).2⟩

/-! ### Token lists -/

variable (L) in
/-- A file is read with more levels of nesting than it has tokens. -/
theorem unitOfTokens_eq (w : ω) : unitOfTokens (L.source w) (L.tokens w) (L.eof w) =
    (unit (rules (L.size + 1)) (L.input w) (L.cursor w 0)).map (·.1) := by
  rw [← L.length_tokens w]
  rfl

/-- What is known of all files that are read is known of the file that a token list writes. -/
theorem exists_of_unitOfTokens {P : (ω → CompilationUnit Node) → Nat → Prop} {w : ω}
    {u : CompilationUnit Node} (hunit : L.Reads (fun _ => unit (rules (L.size + 1))) 0 P)
    (h : unitOfTokens (L.source w) (L.tokens w) (L.eof w) = .ok u) : ∃ v k, v w = u ∧ P v k := by
  rw [unitOfTokens_eq] at h
  rcases hunit (Nat.zero_le L.size) with ⟨v, k, -, hv, hok⟩ | ⟨e, he⟩
  · have heq := (congrArg (Except.map Prod.fst) (hok w)).symm.trans h
    exact ⟨v, k, Except.ok.inj heq, hv⟩
  · have heq := (congrArg (Except.map Prod.fst) (he w).1).symm.trans h
    cases heq

end Layouts

end CSharpAudit
