import CSharpAudit.Proofs.DeclarationOrder
import CSharpAudit.Proofs.NameSpans
import CSharpAudit.Proofs.Overloads
import CSharpAudit.Proofs.UnusedLocals

/-!
# Scopes of members

Each member or delegate of a file that has parameters or a body has a scope of its own, whatever its
name and whatever else goes by that name: overloads, indexers, members of another part of the type.
The scopes stand in the order of the declarations, and from a node of a member its scope is found.

The keys of scopes are the names of the declarations, with a number from the second one of a name
on. That the number counts the declarations of the name up to that one needs names that do not end
with a number themselves. The names of parsed files do not: the mark in front of a number is in none
of the tokens that a name is made of.

## Main definitions

* `CompilationUnit.scopedDeclarations` — the declarations of a file that have scopes
* `CompilationUnit.IsScopeOf` — the scope of a declaration, and how it is found
* `LocalScopes.Holds` — scopes that belong to some declarations, one to each
* `NumberlessEnd` — a text that does not end with a number behind a mark

## Main results

* `LocalScopes.Holds.addMember` — one more declaration gets one more scope
* `MemberName.numberlessEnd` — what members are called does not end with a number
* `each_member_has_its_scope` — the scopes of a file
* `scopes_of_numbered_name` — the keys where a name ends with a number
-/

namespace CSharpAudit

open Grammar

/-! ### Declarations with scopes -/

namespace Declared

/-- The full name of a member or a delegate. -/
def fullName (d : Declared) : String := d.path.declName d.node

/-- Whether a declaration is a member or a delegate with a body or parameters. -/
def opensScope (d : Declared) : Bool :=
  d.node.isMember && !(d.node.bodies.isEmpty && d.node.params.isEmpty)

/-- The scope of a declaration, under some key. -/
def scope (d : Declared) (key : String) : Scope :=
  { key, decl := some (d.address, d.node), locals := Mention.settled d.node.mentions }

end Declared

/-- The members and delegates of a file that have a body or parameters, in source order. -/
def CompilationUnit.scopedDeclarations (u : CompilationUnit Node) : List Declared :=
  u.declarations.filter Declared.opensScope

namespace LocalScopes

variable {l : LocalScopes} {ds : List Declared} {d : Declared}

/-- The scopes are those of some declarations, one for each. No two of them have one key: each got
the first key of its name that none in front of it had. -/
structure Holds (l : LocalScopes) (ds : List Declared) : Prop where
  nodup : l.keys.Nodup
  scopes : List.Forall₂ (fun d s => s = d.scope s.key) ds l.scopes
  firstFree : ∀ (i : Nat) d s, ds[i]? = some d → l.scopes[i]? = some s → ∃ k,
    FirstFree ⟨l.scopes.take i⟩ d.fullName k ∧ s.key = numberedKey d.fullName k
  numbered : Unsuffixed (ds.map Declared.fullName) →
    l.keys = numberedKeys (ds.map Declared.fullName)

theorem holds_empty : ({} : LocalScopes).Holds [] where
  nodup := List.nodup_nil
  scopes := .nil
  firstFree := nofun
  numbered _ := rfl

/-- Namespaces and types have no scopes, and of the members those with parameters or bodies have. -/
theorem addMember_of_isDeclaration (hd : d.node.isDeclaration = true) : l.addMember d =
    if d.opensScope then ⟨l.scopes ++ [d.scope (l.freeKey d.fullName)]⟩ else l := by
  have hscope (key : String) : ({ key } : Scope).collectDecl d = d.scope key :=
    Scope.collectDecl_eq _ d rfl
  rw [addMember_eq, hscope, Declared.opensScope]
  by_cases hmember : d.node.isMember = true
  · rw [hmember, Bool.true_and]
    cases d.node.bodies.isEmpty && d.node.params.isEmpty <;> rfl
  · have hnone : d.node.bodies = [] ∧ d.node.params = [] := by
      revert hd hmember
      cases d.node <;> simp [Node.isDeclaration, Node.isMember, Node.bodies, Node.params]
    simp [hmember, hnone]

/-- One more declaration gets one more scope, and no key is used again. -/
theorem Holds.addMember (h : l.Holds ds) (hd : d.node.isDeclaration = true) :
    (l.addMember d).Holds (ds ++ if d.opensScope then [d] else []) := by
  rw [addMember_of_isDeclaration hd]
  by_cases hopens : d.opensScope = true
  · rw [if_pos hopens, if_pos hopens]
    have hkeys : (⟨l.scopes ++ [d.scope (l.freeKey d.fullName)]⟩ : LocalScopes).keys =
        l.keys ++ [l.freeKey d.fullName] := by
      simp [keys, Declared.scope]
    refine ⟨?_, ?_, ?_, ?_⟩
    · rw [hkeys, List.nodup_append]
      refine ⟨h.nodup, List.nodup_singleton _, ?_⟩
      rintro key hkey _ hfree rfl
      rw [List.mem_singleton] at hfree
      exact l.freeKey_not_mem d.fullName (hfree ▸ hkey)
    · exact List.rel_append h.scopes (.cons rfl .nil)
    · intro i c s hc hs
      have hlength : ds.length = l.scopes.length := h.scopes.length_eq
      rcases Nat.lt_trichotomy i l.scopes.length with hlt | rfl | hgt
      · rw [List.getElem?_append_left (hlength ▸ hlt)] at hc
        rw [List.getElem?_append_left hlt] at hs
        rw [List.take_append_of_le_length (Nat.le_of_lt hlt)]
        exact h.firstFree i c s hc hs
      · -- the last scope is the new one
        rw [← hlength, List.getElem?_concat_length] at hc
        rw [List.getElem?_concat_length] at hs
        obtain rfl := Option.some.inj hc
        obtain rfl := Option.some.inj hs
        rw [List.take_left]
        exact l.exists_firstFree _
      · rw [List.getElem?_eq_none (by simpa using hgt)] at hs
        cases hs
    -- The first number that is free is the count of the name in front, as long as no name has a
    -- number.
    · intro hnames
      rw [List.map_append, List.map_singleton] at hnames ⊢
      have hfront := h.numbered hnames.front
      obtain ⟨k, hk, hkey⟩ := l.exists_firstFree d.fullName
      rw [hkeys, hkey, hk.eq_count hfront hnames, hfront, numberedKeys_concat]
  · rw [if_neg hopens, if_neg hopens, List.append_nil]
    exact h

end LocalScopes

namespace CompilationUnit

variable {u : CompilationUnit Node} {d : Declared} {s : Scope}

/-- The scopes of a file are those of its members. -/
theorem holds_localScopes (u : CompilationUnit Node) :
    (localScopes u).Holds u.scopedDeclarations := by
  have hdecl : ∀ d ∈ u.declarations, d.node.isDeclaration = true := by
    intro d hd
    obtain ⟨v, -, hv, rfl⟩ := mem_declarations_iff.mp hd
    exact hv
  rw [localScopes, scopedDeclarations]
  generalize u.declarations = ds at hdecl
  -- from the back, since the key of a scope depends on the scopes in front of it
  induction ds using List.reverseRecOn with
  | nil => exact LocalScopes.holds_empty
  | append_singleton ds d ih =>
    obtain ⟨hds, hd⟩ := List.forall_mem_append.mp hdecl
    rw [List.foldl_append, List.filter_append, List.filter_singleton,
      Bool.cond_eq_ite]
    exact (ih hds).addMember (hd d List.mem_cons_self)

/-- An element of a list whose elements differ in some respect is found by it. -/
theorem find?_of_nodup {α β : Type} [BEq β] [LawfulBEq β] {f : α → β} {as : List α} {a : α}
    (h : (as.map f).Nodup) (ha : a ∈ as) : as.find? (f · == f a) = some a := by
  have hsome : (as.find? (f · == f a)).isSome = true :=
    List.find?_isSome.mpr ⟨a, ha, beq_self_eq_true (f a)⟩
  obtain ⟨b, hb⟩ := Option.isSome_iff_exists.mp hsome
  have hsame : (f b == f a) = true := by simpa using List.find?_some hb
  rw [hb, List.inj_on_of_nodup_map h (List.mem_of_find?_eq_some hb) ha (eq_of_beq hsame)]

theorem nodup_address_scopedDeclarations (u : CompilationUnit Node) :
    (u.scopedDeclarations.map (·.address)).Nodup :=
  u.nodup_address_declarations.sublist (List.filter_sublist.map _)

/-- The scope of a declaration: it holds what is mentioned there, it is the one with its key, and
from any node of the declaration it is found. -/
structure IsScopeOf (u : CompilationUnit Node) (d : Declared) (s : Scope) : Prop where
  eq : s = d.scope s.key
  get? : (localScopes u).get? s.key = some s
  found : ∀ (session : Session) (c : Cursor), session.artifacts.scopes = some (localScopes u) →
    c.memberNode = some (d.address, d.node) → Rules.scopeAt? session c = some s
  cursor : ∃ c ∈ u.cursors, c.address = d.address ∧ c.memberNode = some (d.address, d.node)

/-- The declarations of the scopes, in their order. -/
theorem map_decl_localScopes (u : CompilationUnit Node) :
    (localScopes u).scopes.map (fun s => s.decl.map (·.1)) =
      u.scopedDeclarations.map fun d => some d.address := by
  have hscopes := u.holds_localScopes.scopes
  generalize (localScopes u).scopes = ss, u.scopedDeclarations = ds at hscopes
  induction hscopes with
  | nil => rfl
  | cons hs _ ih => rw [List.map_cons, List.map_cons, ih, hs]; rfl

theorem isScopeOf_of_mem (hd : d ∈ u.scopedDeclarations) (hs : s ∈ (localScopes u).scopes)
    (heq : s = d.scope s.key) : u.IsScopeOf d s where
  eq := heq
  get? := find?_of_nodup (f := Scope.key) u.holds_localScopes.nodup hs
  found session c hscopes hmember := by
    have haddress : s.decl.map (·.1) = some d.address := by rw [heq]; rfl
    have hnodup : ((localScopes u).scopes.reverse.map fun s => s.decl.map (·.1)).Nodup := by
      rw [List.map_reverse, List.nodup_reverse, map_decl_localScopes]
      have haddresses := u.nodup_address_scopedDeclarations.map (Option.some_injective Address)
      rwa [List.map_map] at haddresses
    have hfind := find?_of_nodup hnodup (List.mem_reverse.mpr hs)
    rw [haddress] at hfind
    rw [Rules.scopeAt?, hscopes, hmember]
    exact hfind
  cursor := by
    obtain ⟨hd, hopens⟩ := List.mem_filter.mp hd
    obtain ⟨c, hc, haddress, -, -, hmember⟩ := exists_cursor_of_declared hd
    exact ⟨c, hc, haddress, (hmember (Bool.and_eq_true_iff.mp hopens).1).1⟩

theorem forall₂_isScopeOf (u : CompilationUnit Node) :
    List.Forall₂ u.IsScopeOf u.scopedDeclarations (localScopes u).scopes := by
  have h := u.holds_localScopes.scopes
  rw [List.forall₂_iff_get] at h ⊢
  exact ⟨h.1, fun i hi hi' => isScopeOf_of_mem (List.get_mem _ _) (List.get_mem _ _) (h.2 i hi hi')⟩

end CompilationUnit

/-! ### Names without numbers -/

/-- A text that does not end with a number behind a mark: behind its last mark, if it has one,
something stands that is no digit. -/
def NumberlessEnd (s : String) : Prop :=
  ∃ front tail, s = front ++ tail ∧ '#' ∉ tail.toList ∧ ∃ c ∈ tail.toList, c.isDigit = false

namespace NumberlessEnd

variable {s : String}

/-- What stands in front of a text is nothing to its end. -/
theorem append (h : NumberlessEnd s) (front : String) : NumberlessEnd (front ++ s) := by
  obtain ⟨front', tail, rfl, htail⟩ := h
  exact ⟨front ++ front', tail, (String.append_assoc ..).symm, htail⟩

theorem of_not_mem (hmark : '#' ∉ s.toList) (h : ∃ c ∈ s.toList, c.isDigit = false) :
    NumberlessEnd s :=
  ⟨"", s, (String.empty_append).symm, hmark, h⟩

theorem ne (h : NumberlessEnd s) (name : String) (n : Nat) : s ≠ name ++ "#" ++ toString n := by
  obtain ⟨front, tail, rfl, hmark, c, hc, hdigit⟩ := h
  intro heq
  have hchars : front.toList ++ tail.toList = name.toList ++ '#' :: (toString n).toList := by
    simpa using congrArg String.toList heq
  rcases List.append_eq_append_iff.mp hchars with ⟨cs, -, htail⟩ | ⟨cs, -, hnumber⟩
  · -- the mark lies in the tail
    exact hmark (htail ▸ List.mem_append_right cs List.mem_cons_self)
  · cases cs with
    | nil =>
      have htail : '#' :: (toString n).toList = tail.toList := hnumber
      exact hmark (htail ▸ List.mem_cons_self)
    | cons d cs =>
      -- the tail lies in the number
      have hmem : c ∈ (toString n).toList :=
        (List.cons.inj hnumber).2 ▸ List.mem_append_right cs hc
      rw [toList_toString] at hmem
      rw [Nat.isDigit_of_mem_toDigits (by decide) (by decide) hmem] at hdigit
      cases hdigit

end NumberlessEnd

/-- No identifier begins with a digit. -/
theorem isDigit_eq_false_of_isIdentStart {c : Char} (h : Lexer.isIdentStart c = true) :
    c.isDigit = false := by
  refine Bool.eq_false_iff.mpr fun hdigit => ?_
  have hrange : 48 ≤ c.toNat ∧ c.toNat < 58 := by
    simp only [Char.isDigit, Bool.and_eq_true, decide_eq_true_eq] at hdigit
    exact ⟨hdigit.1, Nat.lt_succ_of_le hdigit.2⟩
  have hdigits : (List.range' 48 10).all fun n => !Lexer.isIdentStart (Char.ofNat n) := by decide
  have hnot := List.all_eq_true.mp hdigits c.toNat (List.mem_range'_1.mpr hrange)
  rw [Char.ofNat_toNat, h] at hnot
  cases hnot

theorem isIdentPart_numberMark : Lexer.isIdentPart '#' = false := by decide +kernel

theorem IsWord.numberlessEnd {w : String} (h : IsWord w) : NumberlessEnd w := by
  refine .of_not_mem ?_ ?_
  · intro hmark
    have hpart := h.isIdentPart_of_mem hmark
    rw [isIdentPart_numberMark] at hpart
    cases hpart
  · obtain ⟨c, cs, hw, hc, -⟩ := h
    exact ⟨c, hw ▸ List.mem_cons_self, isDigit_eq_false_of_isIdentStart hc⟩

/-- No member is called by a name that ends with a number behind a mark. -/
theorem MemberName.numberlessEnd {tokens : List Token} {name : String}
    (h : MemberName tokens name) (hwords : ∀ i ∈ tokens, i.isIdent = true → IsWord i.text) :
    NumberlessEnd name := by
  have hident {name : String} (h : IdentFrom tokens name) : NumberlessEnd name := by
    obtain ⟨i, hi, hkind, rfl⟩ := h
    exact (hwords i hi hkind).numberlessEnd
  cases h with
  | ident h => exact hident h
  | destructor h => exact (hident h).append "~"
  | @operator op h =>
    -- none of the operators is written with the mark
    have hops : (">>>" :: ">>" :: ">" :: overloadableOps).all fun op =>
      !op.toList.contains '#' := by decide
    have hop : '#' ∉ op.toList := by simpa using List.all_eq_true.mp hops op h
    refine .of_not_mem ?_ ⟨'o', by simp, by decide⟩
    rw [String.toList_append, List.mem_append]
    exact not_or.mpr ⟨by decide, hop⟩
  | @conversion kind ts t hts h =>
    have hmade := (h.madeOfWords fun i hi => hwords i (hts.subset hi)).1
    have htext : '#' ∉ t.text.toList := by
      intro hmark
      rw [← TypeRef.text_erase] at hmark
      rcases hmade.mem_text hmark with hname | hmark
      · rw [TypeRef.isNameChar, isIdentPart_numberMark] at hname
        exact absurd hname (by decide)
      · exact absurd hmark (by decide)
    rw [String.append_assoc]
    refine NumberlessEnd.append (.of_not_mem ?_ ⟨'o', by simp, by decide⟩) kind
    rw [String.toList_append, List.mem_append]
    exact not_or.mpr ⟨by decide, htext⟩
  | indexer interface =>
    exact NumberlessEnd.append (.of_not_mem (by decide) ⟨'t', by decide, by decide⟩) interface

/-! ### Parsed files -/

namespace CompilationUnit

variable {source : List UInt8} {u : CompilationUnit Node}

/-- The name of a member is the end of its full name. -/
theorem numberlessEnd_fullName (hparse : parse source = .ok u) {d : Declared}
    (hd : d ∈ u.scopedDeclarations) : NumberlessEnd d.fullName := by
  obtain ⟨tokens, nullable, hlex, hread⟩ := readFrom_of_parse hparse
  obtain ⟨hd, hopens⟩ := List.mem_filter.mp hd
  have hwords : ∀ i ∈ tokens.dropLast, i.isIdent = true → IsWord i.text := by
    intro i hi
    exact Lexer.isWord_of_lex hlex (List.mem_of_mem_dropLast hi)
  have hnode := hread d hd
  obtain ⟨path, address, n⟩ := d
  -- The types around the member stand in front of its name.
  have hmember {name : String} (h : MemberName tokens.dropLast name) :
      NumberlessEnd (path.memberName name) := by
    rw [DeclPath.memberName]
    split
    · exact h.numberlessEnd hwords
    · exact (h.numberlessEnd hwords).append _
  cases n with
  | method => exact hmember hnode.2.2
  | constructor => exact hmember hnode.2
  | property | event => exact hmember hnode
  | delegate g =>
    obtain ⟨owner, howner⟩ := exists_dotted_eq path.typeName g.name
    rw [Declared.fullName, DeclPath.declName, howner]
    exact ((MemberName.ident hnode).numberlessEnd hwords).append owner
  | _ => cases hopens

theorem unsuffixed_of_parse (hparse : parse source = .ok u) :
    Unsuffixed (u.scopedDeclarations.map Declared.fullName) := by
  intro name hname other _ n
  obtain ⟨d, hd, rfl⟩ := List.mem_map.mp hname
  exact (numberlessEnd_fullName hparse hd).ne other n

end CompilationUnit

/-- The search for the key of a scope ends at the first free key of the name, whatever scopes there
are. The members and delegates of a file with a body or parameters have one scope each, in the order
in which they are visited: it holds what is mentioned there, and from the nodes of that declaration
it is found. No two scopes have one key, since each has the first key of its name that no scope in
front of it has. If no name looks like another one with a number, then the first declaration of a
name has the name as its key, and the one that comes as number `k` has that number behind it. In a
parsed file no name does. -/
theorem each_member_has_its_scope (u : CompilationUnit Node) :
    (∀ (l : LocalScopes) name, ∃ k, l.FirstFree name k ∧ l.freeKey name = numberedKey name k) ∧
    List.Forall₂ u.IsScopeOf u.scopedDeclarations (localScopes u).scopes ∧
    (u.scopedDeclarations.map (·.address)).Nodup ∧
    (localScopes u).keys.Nodup ∧
    (∀ (i : Nat) d s, u.scopedDeclarations[i]? = some d → (localScopes u).scopes[i]? = some s →
      ∃ k, LocalScopes.FirstFree ⟨(localScopes u).scopes.take i⟩ d.fullName k ∧
        s.key = numberedKey d.fullName k) ∧
    (Unsuffixed (u.scopedDeclarations.map Declared.fullName) →
      (localScopes u).keys = numberedKeys (u.scopedDeclarations.map Declared.fullName)) ∧
    ∀ source, parse source = .ok u → Unsuffixed (u.scopedDeclarations.map Declared.fullName) :=
  ⟨LocalScopes.exists_firstFree, u.forall₂_isScopeOf, u.nodup_address_scopedDeclarations,
    u.holds_localScopes.nodup, u.holds_localScopes.firstFree, u.holds_localScopes.numbered,
    fun _ hparse => CompilationUnit.unsuffixed_of_parse hparse⟩

/-- Two methods of one name. -/
def overloadPairText : List UInt8 :=
  "class C\x7bvoid M(int a)\x7b\x7dvoid M(C c)\x7b\x7d\x7d".toList.map Lexer.ascii

theorem overloadPairText_names : (parse overloadPairText).toOption.any (fun u =>
    u.scopedDeclarations.map Declared.fullName == ["C::M", "C::M"]) = true := by
  rw [show overloadPairText = _ from Lexer.ascii_ofList _]
  decide +kernel

theorem scopes_of_overload_pair : ∃ u, parse overloadPairText = .ok u ∧
    Unsuffixed (u.scopedDeclarations.map Declared.fullName) ∧
    (localScopes u).keys = ["C::M", "C::M#2"] ∧
    List.Forall₂ (fun d s => ∃ c ∈ u.cursors, c.memberNode = some (d.address, d.node) ∧
      Rules.scopeAt?
        { document := ⟨"C.cs", overloadPairText⟩, artifacts.scopes := some (localScopes u) } c =
          some s)
      u.scopedDeclarations (localScopes u).scopes := by
  obtain ⟨u, hparse, hnames⟩ := exists_parse_of_any overloadPairText_names
  obtain ⟨-, hscopes, -, -, -, hkeys, hparsed⟩ := each_member_has_its_scope u
  have hunsuffixed := hparsed _ hparse
  refine ⟨u, hparse, hunsuffixed, ?_, hscopes.imp ?_⟩
  · rw [hkeys hunsuffixed, eq_of_beq hnames]
    decide
  · intro d s hscope
    obtain ⟨c, hc, -, hmember⟩ := hscope.cursor
    exact ⟨c, hc, hmember, hscope.found _ c rfl hmember⟩

/-- A class with methods of some names, each with a parameter. Such a tree need not come from a
file, so that the names are arbitrary. -/
def classWithMethods (names : List String) : CompilationUnit Node :=
  let p : Param Node :=
    { span := ⟨0, 0⟩, type := some { span := ⟨0, 0⟩, name := "int" }, name := "a"
      nameSpan := ⟨0, 0⟩ }
  let method (name : String) : Node :=
    .method { span := ⟨0, 0⟩, name, nameSpan := ⟨0, 0⟩, params := [p]
              returnType := { span := ⟨0, 0⟩, name := "void" } }
  { span := ⟨0, 0⟩
    members := [.typeDecl { span := ⟨0, 0⟩, kind := .classType, name := "C", nameSpan := ⟨0, 0⟩
                            members := names.map method }] }

/-- Where a method is called by the name of two others with the number of the second behind it, it
is the first one of that name, but the key is taken. No keys that count the declarations of each
name would be different from each other. -/
theorem scopes_of_numbered_name :
    let u := classWithMethods ["M", "M", "M#2"]
    u.scopedDeclarations.map Declared.fullName = ["C::M", "C::M", "C::M#2"] ∧
      (localScopes u).keys = ["C::M", "C::M#2", "C::M#2#2"] ∧
      (localScopes u).keys ≠ numberedKeys (u.scopedDeclarations.map Declared.fullName) ∧
      ¬ (numberedKeys (u.scopedDeclarations.map Declared.fullName)).Nodup := by
  intro u
  have hnames : u.scopedDeclarations.map Declared.fullName = ["C::M", "C::M", "C::M#2"] := by
    decide +kernel
  have hkeys : (localScopes u).keys = ["C::M", "C::M#2", "C::M#2#2"] := by decide +kernel
  have hnumbered : numberedKeys ["C::M", "C::M", "C::M#2"] = ["C::M", "C::M#2", "C::M#2"] := by
    decide
  rw [hnames, hkeys, hnumbered]
  decide

end CSharpAudit
