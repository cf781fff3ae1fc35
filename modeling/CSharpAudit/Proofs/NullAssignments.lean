import CSharpAudit.Proofs.Codes
import CSharpAudit.Proofs.Cursors
import CSharpAudit.Proofs.Walk
import Mathlib.Data.List.Induction

/-!
# Nulls assigned to variables

The rule on null assignments keeps one table of typed locals for each member. It judges an
assignment by the type of the local of that name which the member has declared last, and if there is
none, by the field or property of that name. Where a scope ends it takes nothing out of the table,
and it enters no parameters, no implicitly typed locals and no variables of patterns and loops.

A walk comes to an inner scope between the parts of the outer one. So among the declarations whose
scope is around an assignment the last one is the innermost one, and the rule is right wherever the
last declaration is in scope and nothing but typed local declarations introduces the name there.

## Main definitions

* `Rule.foundAt` — what a rule finds at a node of a file
* `Node.region` — the part of a tree in which a declaration is in scope
* `CompilationUnit.Judged` — the declaration by which an assignment is judged
* `CompilationUnit.Denotes` — the declaration that a name stands for

## Main results

* `runRules_singleton` — the findings of a rule, node by node
* `foundAt_nullAssignment_iff` — an assignment is judged by the typed local declared last
* `Denotes.of_judged`, `Judged.of_denotes` — the last declaration in scope is the innermost one
* `nullAssignment_reported_iff` — which assignments of null are reported
-/

namespace CSharpAudit

open Address (Before)

/-! ### One rule on a walk -/

namespace CompilationUnit

variable {u : CompilationUnit Node} {c e : Cursor} {front back : List Cursor}

theorem pairwise_before_cursors (u : CompilationUnit Node) :
    u.cursors.Pairwise fun c e => Before c.address e.address :=
  List.pairwise_map.mpr (Node.pairwise_before_visits _ _ _ _)

/-- The nodes of a file that a walk comes to before an address. -/
def cursorsBefore (u : CompilationUnit Node) (a : Address) : List Cursor :=
  u.cursors.filter fun e => Before e.address a

theorem cursorsBefore_eq (h : u.cursors = front ++ c :: back) :
    u.cursorsBefore c.address = front := by
  obtain ⟨-, hback, hfront⟩ := List.pairwise_append.mp (h ▸ u.pairwise_before_cursors)
  have hkeep : front.filter (fun e => decide (Before e.address c.address)) = front :=
    List.filter_eq_self.mpr fun e he => decide_eq_true (hfront e he c List.mem_cons_self)
  have hdrop : (c :: back).filter (fun e => decide (Before e.address c.address)) = [] := by
    refine List.filter_eq_nil_iff.mpr fun e he => ?_
    rw [decide_eq_true_iff]
    rcases List.mem_cons.mp he with rfl | he
    · exact Address.not_before_self
    · exact (List.rel_of_pairwise_cons hback he).not_before
  rw [cursorsBefore, h, List.filter_append, hkeep, hdrop, List.append_nil]

theorem mem_cursorsBefore_iff {a : Address} :
    e ∈ u.cursorsBefore a ↔ e ∈ u.cursors ∧ Before e.address a := by
  rw [cursorsBefore, List.mem_filter, decide_eq_true_iff]

/-- A node has one cursor. -/
theorem cursor_ext (hc : c ∈ u.cursors) (he : e ∈ u.cursors) (h : c.address = e.address) : c = e :=
  List.inj_on_of_nodup_map nodup_cursors hc he h

end CompilationUnit

namespace Rule

variable {r : Rule} {u : CompilationUnit Node} {s : Session}

/-- The state of a rule after some nodes. -/
def stateAfter (r : Rule) (s : Session) (state : r.State) (cs : List Cursor) : r.State :=
  cs.foldl (fun state c => (r.visit s state c).1) state

/-- What a rule finds at a node of a file. -/
def foundAt (r : Rule) (u : CompilationUnit Node) (s : Session) (c : Cursor) : List Diagnostic :=
  (r.visit s (r.stateAfter s r.start (u.cursorsBefore c.address)) c).2

end Rule

/-- The findings of a rule, node by node. -/
theorem runRules_singleton (u : CompilationUnit Node) (s : Session) (r : Rule) :
    runRules u s [r] = u.cursors.flatMap (r.foundAt u s) := by
  -- behind a part of the walk the rule is in the state that it has reached there
  have hwalk (front back : List Cursor) (h : u.cursors = front ++ back) :
      RunningRule.walk s [⟨r, r.stateAfter s r.start front⟩] back =
        back.flatMap (r.foundAt u s) := by
    induction back generalizing front with
    | nil => rfl
    | cons c back ih =>
      have hrest := ih (front ++ [c]) (by simp [h])
      rw [Rule.stateAfter, List.foldl_append] at hrest
      rw [List.flatMap_cons, ← hrest, Rule.foundAt, CompilationUnit.cursorsBefore_eq h]
      simp only [RunningRule.walk, RunningRule.stepAll, RunningRule.step, List.map_cons,
        List.map_nil, List.flatMap_cons, List.flatMap_nil, List.append_nil]
      rfl
  exact hwalk [] u.cursors rfl

/-! ### Scopes -/

namespace Node

/-- A node does not end the scope of a declaration directly below it: labels, the sections of a
`switch`, and a `using` statement without a body. -/
def passesLocals : Node → Bool
  | .labeledStmt .. | .switchSection .. => true
  | .usingStmt _ _ _ body _ => body.isNone
  | _ => false

/-- The part of a tree in which a declaration of a local is in scope: the nearest node above that
ends scopes. -/
def region (root : Node) : Address → Address
  | [] => []
  | _ :: a => if (root.at? a).any passesLocals then region root a else a

variable {root : Node} {a b : Address}

theorem region_suffix (root : Node) (a : Address) : root.region a <:+ a := by
  induction a with
  | nil => exact List.suffix_rfl
  | cons i a ih =>
    rw [region]
    split
    · exact ih.trans (List.suffix_cons i a)
    · exact List.suffix_cons i a

/-- A part around a declaration whose node ends scopes is around its scope. -/
theorem suffix_region (h : b <:+ a) (hne : b ≠ a) (hb : (root.at? b).any passesLocals = false) :
    b <:+ root.region a := by
  induction a with
  | nil => exact absurd (List.suffix_nil.mp h) hne
  | cons i a ih =>
    have h : b <:+ a := (List.suffix_cons_iff.mp h).resolve_left hne
    rw [region]
    split
    · next hpasses =>
      refine ih h ?_
      rintro rfl
      exact absurd (hb.symm.trans hpasses) Bool.false_ne_true
    · exact h

theorem region_passes (root : Node) (a : Address) :
    root.region a = [] ∨ (root.at? (root.region a)).any passesLocals = false := by
  induction a with
  | nil => exact .inl rfl
  | cons i a ih =>
    rw [region]
    split
    · exact ih
    · next h => exact .inr (Bool.eq_false_iff.mpr h)

/-- The scope of a declaration in the scope of another one is within that scope. -/
theorem region_suffix_region (h : root.region b <:+ a) (hne : root.region b ≠ a) :
    root.region b <:+ root.region a := by
  rcases root.region_passes b with hb | hb
  · rw [hb]
    exact List.nil_suffix
  · exact suffix_region h hne hb

end Node

namespace CompilationUnit

variable (u : CompilationUnit Node) (c : Cursor) (x : String)

/-- A node declares a local with a written type in the member around a cursor, before the cursor. -/
structure Declares (e : Cursor) (t : TypeRef) : Prop where
  mem : e ∈ u.cursors
  before : Before e.address c.address
  member_eq : e.memberNode.map (·.1) = c.memberNode.map (·.1)
  declares : ∃ span isConst isRef vars, e.node = .localDecl span (some t) isConst isRef vars ∧
    ∃ v ∈ vars, v.name = x

/-- The declaration by which the rule judges an assignment: the typed local that the member declares
last before it, or else a field or property of the type around. -/
inductive Judged : String → TypeRef → Prop
  | last {e : Cursor} {t : TypeRef} (h : u.Declares c x e t)
      (hlast : ∀ e' t', u.Declares c x e' t' → ¬Before e.address e'.address) : Judged "local" t
  | member {t : TypeRef} (hnone : ∀ e t', ¬u.Declares c x e t')
      (ht : c.owner.bind (Rules.memberType? · x) = some t) : Judged "field" t

/-- A local with a written type is in scope at a cursor. -/
structure InScope (e : Cursor) (t : TypeRef) : Prop extends u.Declares c x e t where
  within : (Node.unit u).region e.address <:+ c.address

end CompilationUnit

/-- The part of a file in which a node may bring a name into scope otherwise than by a local
declaration with a written type. A variable of a pattern may be in scope in the whole member. -/
def Node.brings? (n root : Node) (x : String) (a : Address) : Option Address :=
  match n with
  | .param p => if p.name = x then some a.tail else none
  | .localDecl _ none _ _ vars => if vars.any (·.name == x) then some (root.region a) else none
  | .localFunc _ f => if f.name = x then some (root.region a) else none
  | .foreachStmt _ _ name _ _ _ _ | .catchClause _ _ name _ _ => if name = x then some a else none
  | .accessor _ kind _ _ _ => if kind ≠ "get" ∧ x = "value" then some a else none
  | .isExpr _ _ _ _ name _ | .caseLabel _ _ _ name _ | .declExpr _ _ name =>
    if name = x then some [] else none
  | _ => none

namespace CompilationUnit

variable (u : CompilationUnit Node) (c : Cursor) (x : String)

/-- Something else than a typed local may be what a name stands for at a cursor: a parameter, an
implicitly typed local, or a variable of a pattern, a loop or a `catch`. -/
def Hidden : Prop := ∃ e ∈ u.cursors, e.memberNode.map (·.1) = c.memberNode.map (·.1) ∧
  ∃ r, e.node.brings? (Node.unit u) x e.address = some r ∧ r <:+ c.address

/-- The declaration that a name stands for at a cursor, for a name that nothing but typed locals may
hide there: the innermost typed local in scope, or else a field or property of the type around. -/
inductive Denotes : String → TypeRef → Prop
  | innermost {e : Cursor} {t : TypeRef} (hplain : ¬u.Hidden c x) (h : u.InScope c x e t)
      (hinner : ∀ e' t', u.InScope c x e' t' →
        (Node.unit u).region e'.address <:+ (Node.unit u).region e.address ∧
          ((Node.unit u).region e'.address = (Node.unit u).region e.address →
            ¬Before e.address e'.address)) : Denotes "local" t
  | member {t : TypeRef} (hplain : ¬u.Hidden c x) (hnone : ∀ e t', ¬u.InScope c x e t')
      (ht : c.owner.bind (Rules.memberType? · x) = some t) : Denotes "field" t

variable {u c x} {kind : String} {t : TypeRef}

theorem Declares.eq_of_not_before {e e' : Cursor} {t' : TypeRef} (h : u.Declares c x e t)
    (h' : u.Declares c x e' t') (hbefore : ¬Before e.address e'.address)
    (hbehind : ¬Before e'.address e.address) : e = e' ∧ t = t' := by
  have haddress := (Address.before_trichotomy e.address e'.address).resolve_left hbefore
  obtain rfl := cursor_ext h.mem h'.mem (haddress.resolve_right hbehind)
  obtain ⟨span, isConst, isRef, vars, hnode, -⟩ := h.declares
  obtain ⟨span', isConst', isRef', vars', hnode', -⟩ := h'.declares
  rw [hnode] at hnode'
  exact ⟨rfl, Option.some.inj (Node.localDecl.inj hnode').2.1⟩

/-- Of two declarations in scope, the earlier one has the wider scope. -/
theorem InScope.region_suffix {e e' : Cursor} {t' : TypeRef} (h : u.InScope c x e t)
    (h' : u.InScope c x e' t') (hbefore : Before e'.address e.address) :
    (Node.unit u).region e'.address <:+ (Node.unit u).region e.address := by
  -- the walk is in the scope of the earlier declaration when it comes to the later one
  have hwithin : (Node.unit u).region e'.address <:+ e.address :=
    Address.within_of_between (Node.region_suffix _ _) h'.within hbefore h.before
  refine Node.region_suffix_region hwithin ?_
  intro heq
  have hsuffix : e.address <:+ e'.address := heq ▸ Node.region_suffix (.unit u) e'.address
  rcases eq_or_ne e.address e'.address with hsame | hne
  · exact Address.not_before_self (hsame ▸ hbefore)
  · exact hbefore.not_before (Address.before_of_suffix hsuffix hne)

/-- The last of the typed locals is in scope, if there is one. -/
def LastInScope (u : CompilationUnit Node) (c : Cursor) (x : String) : Prop :=
  ∀ e t, u.Declares c x e t → (∀ e' t', u.Declares c x e' t' → ¬Before e.address e'.address) →
    (Node.unit u).region e.address <:+ c.address

/-- If the last declaration is in scope, it is the innermost one in scope. -/
theorem Denotes.of_judged (hplain : ¬u.Hidden c x) (hscope : u.LastInScope c x)
    (h : u.Judged c x kind t) : u.Denotes c x kind t := by
  cases h with
  | @last e t h hlast =>
    have hin : u.InScope c x e t := ⟨h, hscope e t h hlast⟩
    refine .innermost hplain hin fun e' t' h' => ?_
    have hnot := hlast e' t' h'.toDeclares
    rcases Address.before_trichotomy e.address e'.address with hbefore | heq | hbefore
    · exact absurd hbefore hnot
    · exact ⟨heq ▸ List.suffix_rfl, fun _ => hnot⟩
    · exact ⟨hin.region_suffix h' hbefore, fun _ => hnot⟩
  | member hnone ht => exact .member hplain (fun e t' h' => hnone e t' h'.toDeclares) ht

/-- The type that a node writes for a local of the member around a cursor. -/
def typeOfLocal? (c : Cursor) (x : String) (e : Cursor) : Option TypeRef :=
  match e.node with
  | .localDecl _ (some t) _ _ vars =>
    if vars.any (·.name == x) ∧ e.memberNode.map (·.1) = c.memberNode.map (·.1) then some t
    else none
  | _ => none

theorem declares_iff {e : Cursor} : u.Declares c x e t ↔
    e ∈ u.cursorsBefore c.address ∧ typeOfLocal? c x e = some t := by
  rw [mem_cursorsBefore_iff]
  constructor
  · rintro ⟨hmem, hbefore, hmember, span, isConst, isRef, vars, hnode, v, hv, rfl⟩
    have hany : vars.any (·.name == v.name) = true := List.any_eq_true.mpr ⟨v, hv, beq_self_eq_true _⟩
    exact ⟨⟨hmem, hbefore⟩, by simp only [typeOfLocal?, hnode, hany, hmember, and_self, if_true]⟩
  · rintro ⟨⟨hmem, hbefore⟩, htype⟩
    rw [typeOfLocal?] at htype
    split at htype
    · next span t' isConst isRef vars hnode =>
      obtain ⟨⟨hany, hmember⟩, heq⟩ := (Option.ite_none_right_eq_some ..).mp htype
      obtain ⟨v, hv, hname⟩ := List.any_eq_true.mp hany
      exact ⟨hmem, hbefore, hmember, span, isConst, isRef, vars, heq ▸ hnode, v, hv,
        eq_of_beq hname⟩
    · cases htype

theorem Declares.exists_findSome? {e : Cursor} (h : u.Declares c x e t) : ∃ t',
    (u.cursorsBefore c.address).reverse.findSome? (typeOfLocal? c x) = some t' := by
  obtain ⟨hmem, htype⟩ := declares_iff.mp h
  exact Option.isSome_iff_exists.mp (List.findSome?_isSome_iff.mpr
    ⟨e, List.mem_reverse.mpr hmem, Option.isSome_iff_exists.mpr ⟨t, htype⟩⟩)

/-- The last typed local is found by looking from the back. -/
theorem findSome?_typeOfLocal?_iff :
    (u.cursorsBefore c.address).reverse.findSome? (typeOfLocal? c x) = some t ↔
      ∃ e, u.Declares c x e t ∧ ∀ e' t', u.Declares c x e' t' → ¬Before e.address e'.address := by
  have hlast {t : TypeRef}
      (h : (u.cursorsBefore c.address).reverse.findSome? (typeOfLocal? c x) = some t) :
      ∃ e, u.Declares c x e t ∧ ∀ e' t', u.Declares c x e' t' → ¬Before e.address e'.address := by
    obtain ⟨later, e, earlier, hsplit, htype, hnone⟩ := List.findSome?_eq_some_iff.mp h
    -- nothing behind the first hit from the back declares the name
    have hsplit : u.cursorsBefore c.address = earlier.reverse ++ e :: later.reverse := by
      simpa using congrArg List.reverse hsplit
    have horder : (earlier.reverse ++ e :: later.reverse).Pairwise fun e e' =>
        Before e.address e'.address := hsplit ▸ u.pairwise_before_cursors.filter _
    have hmem : e ∈ u.cursorsBefore c.address := by simp [hsplit]
    refine ⟨e, declares_iff.mpr ⟨hmem, htype⟩, fun e' t' h' hbefore => ?_⟩
    obtain ⟨hmem', htype'⟩ := declares_iff.mp h'
    rw [hsplit, List.mem_append, List.mem_cons] at hmem'
    rcases hmem' with hmem' | rfl | hmem'
    · exact ((List.pairwise_append.mp horder).2.2 e' hmem' e List.mem_cons_self).not_before hbefore
    · exact Address.not_before_self hbefore
    · cases (hnone e' (List.mem_reverse.mp hmem')).symm.trans htype'
  refine ⟨hlast, ?_⟩
  rintro ⟨e, h, hlater⟩
  obtain ⟨t', ht'⟩ := h.exists_findSome?
  obtain ⟨e', h', hlater'⟩ := hlast ht'
  obtain ⟨-, rfl⟩ := h.eq_of_not_before h' (hlater e' t' h') (hlater' e t h)
  exact ht'

theorem exists_last (h : ∃ e t, u.Declares c x e t) :
    ∃ e t, u.Declares c x e t ∧ ∀ e' t', u.Declares c x e' t' → ¬Before e.address e'.address := by
  obtain ⟨e, t, h⟩ := h
  obtain ⟨t', ht'⟩ := h.exists_findSome?
  obtain ⟨l, hl⟩ := findSome?_typeOfLocal?_iff.mp ht'
  exact ⟨l, t', hl⟩

/-- The innermost declaration in scope is the last declaration, if this is in scope. -/
theorem Judged.of_denotes (hscope : u.LastInScope c x) (h : u.Denotes c x kind t) :
    u.Judged c x kind t := by
  cases h with
  | @innermost e t hplain h hinner =>
    obtain ⟨l, tl, hl, hlast⟩ := exists_last ⟨e, t, h.toDeclares⟩
    have hin : u.InScope c x l tl := ⟨hl, hscope l tl hl hlast⟩
    obtain ⟨houter, hnot⟩ := hinner l tl hin
    -- a later declaration in scope would be further inside, or in the same scope
    have hbefore : ¬Before e.address l.address := by
      intro hbefore
      have hinto := hin.region_suffix h hbefore
      exact hnot (houter.eq_of_length_le hinto.length_le) hbefore
    obtain ⟨rfl, rfl⟩ := h.toDeclares.eq_of_not_before hl hbefore (hlast e t h.toDeclares)
    exact .last hl hlast
  | member hplain hnone ht =>
    refine .member (fun e t' hdeclares => ?_) ht
    obtain ⟨l, tl, hl, hlast⟩ := exists_last ⟨e, t', hdeclares⟩
    exact hnone l tl ⟨hl, hscope l tl hl hlast⟩

end CompilationUnit

/-! ### The rule on null assignments -/

section Rule

variable {u : CompilationUnit Node} {s : Session} {c : Cursor} {x : String} {d : Diagnostic}

/-- A node puts the typed locals that it declares into the table of its member. -/
theorem lookup_visit_nullAssignment (ls : Rules.TypedLocals) (e : Cursor) :
    ((Rules.nullAssignment.visit s ls e).1 : Rules.TypedLocals).lookup
        (c.memberNode.map (·.1), x) =
      (CompilationUnit.typeOfLocal? c x e).or (ls.lookup (c.memberNode.map (·.1), x)) := by
  have hvars (member : Option Address) (t : TypeRef) (vars : List (VarDeclarator Node))
      (ls : Rules.TypedLocals) :
      (vars.foldl (fun ls v => ((member, v.name), t) :: ls) ls).lookup
          (c.memberNode.map (·.1), x) =
        if vars.any (·.name == x) ∧ member = c.memberNode.map (·.1) then some t
        else ls.lookup (c.memberNode.map (·.1), x) := by
    induction vars generalizing ls with
    | nil => simp
    | cons v vars ih =>
      rw [List.foldl_cons, ih, List.lookup_cons]
      by_cases hkey : (c.memberNode.map (·.1), x) = (member, v.name)
      · obtain ⟨rfl, rfl⟩ := Prod.mk.inj hkey
        simp
      · have hsame : (v :: vars).any (·.name == x) = true ∧ member = c.memberNode.map (·.1) ↔
            vars.any (·.name == x) = true ∧ member = c.memberNode.map (·.1) := by
          rw [List.any_cons, Bool.or_eq_true, beq_iff_eq, or_and_right, or_iff_right]
          rintro ⟨rfl, rfl⟩
          exact hkey rfl
        rw [beq_false_of_ne hkey, if_congr hsame rfl rfl]
  -- all other nodes leave the table as it is
  have hkeep (hn : ∀ span t isConst isRef vars, e.node ≠ .localDecl span (some t) isConst isRef vars) :
      (Rules.nullAssignment.visit s ls e).1 = ls := by
    simp only [Rules.nullAssignment]
    split
    · rfl
    · rfl
    · rfl
    · next hnode => exact absurd hnode (hn _ _ _ _ _)
    · split <;> rfl
    · rfl
  rw [CompilationUnit.typeOfLocal?]
  split
  · next span t isConst isRef vars hnode =>
    simp only [Rules.nullAssignment, hnode]
    rw [hvars]
    split <;> rfl
  · next hn =>
    rw [hkeep hn]
    rfl

/-- When the walk comes to a node, the table holds the typed locals declared before. -/
theorem lookup_stateAfter_nullAssignment (cs : List Cursor) :
    (Rules.nullAssignment.stateAfter s Rules.nullAssignment.start cs : Rules.TypedLocals).lookup
        (c.memberNode.map (·.1), x) =
      cs.reverse.findSome? (CompilationUnit.typeOfLocal? c x) := by
  -- from the back, since the last node is the one whose locals are found first
  induction cs using List.reverseRecOn with
  | nil => rfl
  | append_singleton cs e ih =>
    rw [Rule.stateAfter, List.foldl_append, List.foldl_cons, List.foldl_nil]
    refine (lookup_visit_nullAssignment _ e).trans ?_
    rw [List.reverse_append, List.reverse_singleton, List.singleton_append, List.findSome?_cons,
      ← ih]
    cases CompilationUnit.typeOfLocal? c x e <;> rfl

/-- What is assigned is judged with the table that the walk has made so far. -/
theorem assignmentTarget?_eq_some_iff {lhs : Node} {place : Span} {args : List TypeRef}
    (hname : lhs.unparen = .ident place x args) {locals : Rules.TypedLocals}
    (hlookup : locals.lookup (c.memberNode.map (·.1), x) =
      (u.cursorsBefore c.address).reverse.findSome? (CompilationUnit.typeOfLocal? c x))
    {kind y : String} {t : TypeRef} :
    Rules.assignmentTarget? locals c lhs = some (kind, y, t) ↔ y = x ∧ u.Judged c x kind t := by
  simp only [Rules.assignmentTarget?, hname, hlookup]
  -- The table either has a local of that name, which is the last one met, or none.
  cases hfind : (u.cursorsBefore c.address).reverse.findSome?
      (CompilationUnit.typeOfLocal? c x) with
  | some t' =>
    obtain ⟨e, h, hlast⟩ := CompilationUnit.findSome?_typeOfLocal?_iff.mp hfind
    constructor
    · rintro heq
      cases heq
      exact ⟨rfl, .last h hlast⟩
    · rintro ⟨rfl, hjudged⟩
      cases hjudged with
      | last h hlast =>
        have hfind' := CompilationUnit.findSome?_typeOfLocal?_iff.mpr ⟨_, h, hlast⟩
        rw [Option.some.inj (hfind.symm.trans hfind')]
      | member hnone => exact absurd h (hnone e t')
  | none =>
    have hnone (e : Cursor) (t' : TypeRef) : ¬u.Declares c x e t' := fun h => by
      obtain ⟨t'', ht''⟩ := h.exists_findSome?
      cases hfind.symm.trans ht''
    simp only [Option.map_eq_some_iff, Prod.mk.injEq]
    constructor
    · rintro ⟨t', ht', rfl, rfl, rfl⟩
      exact ⟨rfl, .member hnone ht'⟩
    · rintro ⟨rfl, hjudged⟩
      cases hjudged with
      | last h => exact absurd h (hnone _ _)
      | member _ ht => exact ⟨t, ht, rfl, rfl, rfl⟩

/-- What is found at an assignment, from what it assigns to. -/
theorem mem_visit_nullAssignment_iff {span : Span} {lhs rhs : Node}
    (hnode : c.node = .assign span "=" lhs rhs) (locals : Rules.TypedLocals) :
    d ∈ (Rules.nullAssignment.visit s locals c).2 ↔ rhs.isNullLiteral = true ∧ ∃ kind y t,
      Rules.assignmentTarget? locals c lhs = some (kind, y, t) ∧
        isReferenceType t (Rules.typeKindOf s.artifacts.symbols) = true ∧
          d = s.finding .nullToNonNullable span
            s!"Cannot assign null to non-nullable {kind} '{y}' of type '{t.text}'" := by
  simp only [Rules.nullAssignment, hnode]
  cases Rules.assignmentTarget? locals c lhs with
  | none => simp
  | some target =>
    obtain ⟨kind, y, t⟩ := target
    simp only [Option.any_some]
    constructor
    · intro hd
      split at hd
      · next hbad =>
        obtain ⟨hnull, htype⟩ := Bool.and_eq_true_iff.mp hbad
        exact ⟨hnull, kind, y, t, rfl, htype, List.mem_singleton.mp hd⟩
      · cases hd
    · rintro ⟨hnull, kind, y, t, htarget, htype, rfl⟩
      cases htarget
      rw [if_pos (Bool.and_eq_true_iff.mpr ⟨hnull, htype⟩)]
      exact List.mem_singleton.mpr rfl

/-- An assignment of null is judged by the typed local that the member has declared last, or else by
a field or property. -/
theorem foundAt_nullAssignment_iff {span : Span} {lhs rhs : Node} {args : List TypeRef}
    (hnode : c.node = .assign span "=" lhs rhs) {place : Span}
    (hname : lhs.unparen = .ident place x args) :
    d ∈ Rules.nullAssignment.foundAt u s c ↔ rhs.isNullLiteral = true ∧ ∃ kind t,
      u.Judged c x kind t ∧ isReferenceType t (Rules.typeKindOf s.artifacts.symbols) = true ∧
        d = s.finding .nullToNonNullable span
          s!"Cannot assign null to non-nullable {kind} '{x}' of type '{t.text}'" := by
  have htarget {kind y : String} {t : TypeRef} :
      Rules.assignmentTarget? (Rules.nullAssignment.stateAfter s Rules.nullAssignment.start
        (u.cursorsBefore c.address)) c lhs = some (kind, y, t) ↔ y = x ∧ u.Judged c x kind t :=
    assignmentTarget?_eq_some_iff hname (lookup_stateAfter_nullAssignment _)
  refine (mem_visit_nullAssignment_iff hnode _).trans ?_
  refine and_congr_right fun _ => exists_congr fun kind => ?_
  constructor
  · rintro ⟨y, t, heq, htype, hd⟩
    obtain ⟨rfl, hjudged⟩ := htarget.mp heq
    exact ⟨t, hjudged, htype, hd⟩
  · rintro ⟨t, hjudged, htype, hd⟩
    exact ⟨x, t, htarget.mpr ⟨rfl, hjudged⟩, htype, hd⟩

end Rule

/-- The pass on null values looks at the nodes of a file one by one, if the file distinguishes
nullable types. An assignment of null to a name is reported there if and only if the declaration by
which it is judged has a reference type that does not admit null. This is the declaration that the
name stands for, provided that nothing but typed locals may hide a member of the type there and that
the last typed local of that name in the member, if there is one, is in scope. -/
theorem nullAssignment_reported_iff {u : CompilationUnit Node} {s : Session} {c : Cursor}
    {span place : Span} {lhs rhs : Node} {x : String} {args : List TypeRef}
    (hnode : c.node = .assign span "=" lhs rhs) (hname : lhs.unparen = .ident place x args) :
    Passes.nullability.findings u s =
      (if u.nullableEnabled then u.cursors.flatMap (Rules.nullAssignment.foundAt u s) else []) ∧
    (∀ d, d ∈ Rules.nullAssignment.foundAt u s c ↔ rhs.isNullLiteral = true ∧ ∃ kind t,
      u.Judged c x kind t ∧ isReferenceType t (Rules.typeKindOf s.artifacts.symbols) = true ∧
        d = s.finding .nullToNonNullable span
          s!"Cannot assign null to non-nullable {kind} '{x}' of type '{t.text}'") ∧
    (¬u.Hidden c x → u.LastInScope c x →
      ∀ kind t, u.Judged c x kind t ↔ u.Denotes c x kind t) := by
  refine ⟨?_, fun d => foundAt_nullAssignment_iff hnode hname, fun hplain hscope kind t =>
    ⟨.of_judged hplain hscope, .of_denotes hscope⟩⟩
  rw [← runRules_singleton]
  split
  · next h => exact Entry.findings_of_report rfl (if_pos h)
  · next h => exact Entry.findings_of_store rfl (congrArg Session.diagnostics (if_neg h))

/-- The assignment `x = null`. -/
def nullToX : Node :=
  .assign Span.none "=" (.ident Span.none "x" []) (.literal Span.none .null "null")

/-- A method with a local `x`, to which null is assigned in a block inside. -/
def assignedLocal : CompilationUnit Node where
  span := Span.none
  nullableEnabled := true
  members := [.method
    { span := Span.none, name := "M", nameSpan := Span.none
      returnType := { span := Span.none, name := "void" }
      body := some (.block Span.none
        [.localDecl Span.none (some { span := Span.none, name := "string" }) false false
          [{ span := Span.none, name := "x", nameSpan := Span.none }],
          .block Span.none [.exprStmt Span.none nullToX]]) }]

theorem assignedLocal_reported_iff :
    let s : Session := { document := ⟨"A.cs", []⟩ }
    let x := "x"
    ∃ c ∈ assignedLocal.cursors, c.node = nullToX ∧
      ∀ d, d ∈ Rules.nullAssignment.foundAt assignedLocal s c ↔ ∃ kind t,
        assignedLocal.Denotes c x kind t ∧
          isReferenceType t (Rules.typeKindOf s.artifacts.symbols) = true ∧
            d = s.finding .nullToNonNullable Span.none
              s!"Cannot assign null to non-nullable {kind} '{x}' of type '{t.text}'" := by
  intro s x
  have hat : (Node.unit assignedLocal).at? [0, 0, 1, 1, 0] = some nullToX := rfl
  obtain ⟨c, hc, haddress, hnode⟩ := CompilationUnit.exists_cursor_of_at? hat
  -- both conditions on the locals around the assignment are computed
  have hbrings : (assignedLocal.cursors.all fun e =>
      (e.node.brings? (.unit assignedLocal) "x" e.address).isNone) = true := by decide +kernel
  have hregions : (assignedLocal.cursors.all fun e => match e.node with
      | .localDecl .. => ((Node.unit assignedLocal).region e.address).isSuffixOf [0, 0, 1, 1, 0]
      | _ => true) = true := by decide +kernel
  have hplain : ¬assignedLocal.Hidden c "x" := by
    rintro ⟨e, he, -, r, hr, -⟩
    have hnone := List.all_eq_true.mp hbrings e he
    rw [hr] at hnone
    cases hnone
  have hscope : assignedLocal.LastInScope c "x" := by
    intro e t h _
    obtain ⟨span, isConst, isRef, vars, hlocal, -⟩ := h.declares
    have hregion := List.all_eq_true.mp hregions e h.mem
    rw [hlocal] at hregion
    exact haddress ▸ List.isSuffixOf_iff_suffix.mp hregion
  obtain ⟨-, hfound, hdenotes⟩ := nullAssignment_reported_iff (u := assignedLocal) (s := s)
    (x := x) hnode rfl
  refine ⟨c, hc, hnode, fun d => ?_⟩
  simp only [hfound, hdenotes hplain hscope]
  exact and_iff_right rfl

/-- The messages on null values for a file. -/
def nullsInText (text : List UInt8) : Option (List String) :=
  (parse text).toOption.map fun u =>
    (Passes.nullability.findings u
      (Passes.indexing.advance u { document := ⟨"A.cs", text⟩ })).map (·.message)

/-- The members of the types of a file, with the names and written types of their parameters. -/
def paramsInText (text : List UInt8) : Option (List (String × List (String × String))) :=
  (parse text).toOption.map fun u => u.types.flatMap fun t => t.members.map fun n =>
    (n.declaredName, n.params.map fun p => (p.name, (p.type.map TypeRef.text).getD ""))

def nullableParameterText : List UInt8 :=
  "#nullable enable\nclass C\x7bstring x=\"\";void M(string? x)\x7bx=null;\x7d\x7d".toList.map
    Lexer.ascii

/-- An assignment is reported for a field that is hidden by a parameter which admits null. -/
theorem nullableParameterText_reported :
    paramsInText nullableParameterText = some [("x", []), ("M", [("x", "string?")])] ∧
      nullsInText nullableParameterText =
        some ["Cannot assign null to non-nullable field 'x' of type 'string'"] := by
  rw [show nullableParameterText = _ from Lexer.ascii_ofList _]
  decide +kernel

end CSharpAudit
