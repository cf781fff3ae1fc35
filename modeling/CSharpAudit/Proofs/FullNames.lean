import CSharpAudit.Proofs.Dependencies
import CSharpAudit.Proofs.NormalForms
import CSharpAudit.Proofs.Overloads

/-!
# Full names of types

The names of namespaces, types and delegates are made of identifiers. So a full name is not empty
and holds no blank, in normal form too, and a text that puts full names between blanks tells what
they are.

## Main definitions

* `Node.WellNamed` — a declaration whose name is unbroken, if it is part of full names
* `DeclPath.Sound` — a path whose names are unbroken

## Main results

* `sound_path` — the paths of well named declarations are sound
* `unbroken_fullName_of_parse` — the full names of its types are unbroken
-/

namespace CSharpAudit

open Text (Unbroken)

/-! ### Unbroken texts -/

namespace Text.Unbroken

variable {s outer name : String}

/-- A word is unbroken. -/
theorem of_isWord (h : IsWord s) : Unbroken s where
  ne_empty hempty := by
    obtain ⟨c, cs, hs, -⟩ := h
    rw [hempty] at hs
    cases hs
  notMem hblank := by
    have hpart := h.isIdentPart_of_mem hblank
    rw [Lexer.isIdentPart_mark List.mem_cons_self] at hpart
    cases hpart

/-- Unbroken texts with points between them make an unbroken text. -/
theorem intercalate {first : String} {more : List String}
    (h : ∀ s ∈ first :: more, Unbroken s) : Unbroken (".".intercalate (first :: more)) where
  ne_empty hempty := by
    -- the joined text begins with its first part
    refine (h first List.mem_cons_self).ne_empty ?_
    cases more with
    | nil => simpa using hempty
    | cons s more =>
      rw [String.intercalate_cons_cons, String.append_eq_empty_iff,
        String.append_eq_empty_iff] at hempty
      exact hempty.1.1
  notMem hblank := by
    rcases TypeRef.mem_intercalate hblank with hpoint | ⟨s, hs, hblank⟩
    · exact absurd hpoint (by decide)
    · exact (h s hs).notMem hblank

/-- A point between unbroken names leaves the name unbroken. -/
theorem dotted (houter : outer = "" ∨ Unbroken outer) (hname : Unbroken name) :
    Unbroken (DeclPath.dotted outer name) := by
  unfold DeclPath.dotted
  split
  · exact hname
  · next hne =>
    have houter := houter.resolve_left fun heq => hne (by rw [heq]; rfl)
    have h : Unbroken (".".intercalate [outer, name]) := .intercalate (by simp [houter, hname])
    simpa [String.intercalate_cons_cons] using h

end Text.Unbroken

/-- The name of a namespace, a type or a delegate is unbroken. -/
def Node.WellNamed : Node → Prop
  | namespaceDecl d => Unbroken d.name
  | typeDecl t => Unbroken t.name
  | delegate d => Unbroken d.name
  | _ => True

/-- The names that were read from tokens are unbroken if the identifiers among these are words. -/
theorem Node.ReadFrom.wellNamed {tokens : List Token} {n : Node} (h : n.ReadFrom tokens)
    (hwords : ∀ i ∈ tokens, i.isIdent = true → IsWord i.text) : n.WellNamed := by
  have hident {s : String} (hs : IdentFrom tokens s) : Unbroken s := by
    obtain ⟨i, hi, hkind, rfl⟩ := hs
    exact .of_isWord (hwords i hi hkind)
  cases n with
  | namespaceDecl d =>
    obtain ⟨first, more, hmore, hname⟩ := h
    rw [WellNamed, hname]
    exact .intercalate fun s hs => hident (hmore s hs)
  | typeDecl t => exact hident h.2.2
  | delegate d => exact hident h
  | _ => trivial

/-! ### Paths -/

namespace DeclPath

variable {p : DeclPath} {n : Node}

/-- The names of the namespace and the types of a path are unbroken. -/
structure Sound (p : DeclPath) : Prop where
  namespaceName : p.namespaceName = "" ∨ Unbroken p.namespaceName
  types : ∀ t ∈ p.types, Unbroken t.name

/-- A declaration with a good name keeps the path made of good names. -/
theorem Sound.enter (hp : p.Sound) (hn : n.WellNamed) : (p.enter n).Sound := by
  cases n with
  | namespaceDecl d => exact ⟨.inr (.dotted hp.namespaceName hn), List.forall_mem_nil _⟩
  | typeDecl t =>
    exact ⟨hp.namespaceName,
      List.forall_mem_append.mpr ⟨hp.types, List.forall_mem_singleton.mpr hn⟩⟩
  | _ => exact hp

theorem Sound.typeName (hp : p.Sound) : p.typeName = "" ∧ p.types = [] ∨ Unbroken p.typeName := by
  have hparts : ∀ s ∈ (if p.namespaceName.isEmpty then [] else [p.namespaceName]) ++
      p.types.map (·.name), Unbroken s := by
    refine List.forall_mem_append.mpr ⟨?_, List.forall_mem_map.mpr hp.types⟩
    split
    · exact List.forall_mem_nil _
    · next hne =>
      exact List.forall_mem_singleton.mpr <| hp.namespaceName.resolve_left fun heq =>
        hne (by rw [heq]; rfl)
  rw [DeclPath.typeName]
  generalize hlist : (if p.namespaceName.isEmpty then [] else [p.namespaceName]) ++
    p.types.map (·.name) = parts at hparts
  cases parts with
  | nil => exact .inl ⟨rfl, List.map_eq_nil_iff.mp (List.append_eq_nil_iff.mp hlist).2⟩
  | cons first more => exact .inr (.intercalate hparts)

end DeclPath

/-! ### Types of a file -/

section

variable {u : CompilationUnit Node} (hnames : ∀ d ∈ u.declarations, d.node.WellNamed)
include hnames

/-- What a walk hands down to a declaration is sound, since what stands around is named. -/
theorem sound_inherited {v : Visit DeclPath}
    (hv : Node.Visited CompilationUnit.declPath? ⟨[], {}, .unit u⟩ v) : v.inherited.Sound := by
  induction hv with
  | root => exact ⟨.inl rfl, List.forall_mem_nil _⟩
  | @child v below i c hv henter hc ih =>
    obtain ⟨hholds, hbelow⟩ := Option.ite_none_right_eq_some.mp henter
    obtain rfl := Option.some.inj hbelow
    dsimp only
    by_cases hdecl : v.node.isDeclaration = true
    · exact ih.enter (hnames _ (CompilationUnit.mem_declarations_iff.mpr ⟨v, hv, hdecl, rfl⟩))
    · -- nothing but the file itself holds declarations and is none
      refine ih.enter ?_
      revert hdecl hholds
      cases v.node <;> simp [Node.isDeclaration, Node.holdsDeclarations, Node.WellNamed]

/-- The path to a declaration is made of good names. -/
theorem sound_path {d : Declared} (hd : d ∈ u.declarations) : d.path.Sound := by
  have hnode := hnames d hd
  obtain ⟨v, hv, -, rfl⟩ := CompilationUnit.mem_declarations_iff.mp hd
  exact (sound_inherited hnames hv).enter hnode

/-- The full name of a type is unbroken. -/
theorem unbroken_fullName {s : Symbol} (hs : s ∈ (symbolIndex u).types) : Unbroken s.fullName := by
  obtain ⟨hmem, htype⟩ := List.mem_filter.mp hs
  obtain ⟨d, hd, r, hr, i, rfl⟩ := CompilationUnit.exists_declared_of_mem_symbols hmem
  refine Text.unbroken_normalize ?_
  have htype : d.node.declaresType = true := (Declared.isType_eq_of_mem_symbols hr).symm.trans htype
  have hpath := (sound_path hnames hd).typeName
  have hnode := hnames d hd
  -- the name of a type is the last part of its path, that of a delegate is not on the path
  cases hn : d.node with
  | typeDecl t =>
    have htypes : d.path.types ≠ [] := by
      obtain ⟨v, -, -, rfl⟩ := CompilationUnit.mem_declarations_iff.mp hd
      dsimp only at hn
      simp [hn, DeclPath.enter, DeclPath.withType]
    simp only [Declared.symbols, hn, List.mem_singleton] at hr
    rw [hr]
    exact hpath.resolve_left fun h => htypes h.2
  | delegate g =>
    rw [hn] at hnode
    simp only [Declared.symbols, hn, List.mem_singleton] at hr
    rw [hr]
    exact .dotted (hpath.imp_left (·.1)) hnode
  | _ =>
    rw [hn] at htype
    cases htype

end

/-! ### Parsed files -/

/-- The declarations of a parsed file have good names. -/
theorem wellNamed_of_parse {source : List UInt8} {u : CompilationUnit Node}
    (hparse : parse source = .ok u) : ∀ d ∈ u.declarations, d.node.WellNamed := by
  obtain ⟨tokens, nullable, hlex, hread⟩ := readFrom_of_parse hparse
  exact fun d hd => (hread d hd).wellNamed fun i hi =>
    Lexer.isWord_of_lex hlex (List.mem_of_mem_dropLast hi)

/-- The full names of the types of a parsed file are not empty and hold no blank. -/
theorem unbroken_fullName_of_parse {source : List UInt8} {u : CompilationUnit Node}
    (hparse : parse source = .ok u) {s : Symbol} (hs : s ∈ (symbolIndex u).types) :
    Unbroken s.fullName :=
  unbroken_fullName (wellNamed_of_parse hparse) hs

end CSharpAudit
