import CSharpAudit.Proofs.Codes
import CSharpAudit.Proofs.ScopeKeys
import CSharpAudit.Proofs.Walk
import Mathlib.Data.List.Induction

/-!
# Locals reported as unused

A walk over the bodies of a member comes across names that are introduced and names that are used.
A use counts for the name introduced last before it, wherever in the member that is: the parameter
of a lambda and the local of a block that has ended take uses from a local that is still in scope.

So a local is reported as unused if and only if all uses of its name behind its declaration stand
behind another introduction of the name. Since a walk is done with a block before it goes on, the
same can be said of each block around the declaration by itself.

What stands in the holes of an interpolated string is no node and is never counted.

## Main definitions

* `Mention` — a name that is introduced or used at a place of a body
* `Mention.settled` — the locals that some mentions introduce, with their uses
* `Mention.Captured` — the uses of a name within a part of a body count for another local
* `Node.mentions` — the mentions in the bodies of a member

## Main results

* `Scope.foldl_hear` — the locals of a scope, from the mentions it hears of
* `flatMap_locals_localScopes` — the locals of a file, from the mentions in its members
* `unusedVariable_reported_iff` — which locals are reported as unused
-/

namespace CSharpAudit

open Address (Before)

/-! ### Mentions of names -/

/-- A name that is introduced or used, with the place where this happens. -/
inductive Mention where
  | introduces (a : Address) (l : Local)
  | uses (a : Address) (name : String)

namespace Mention

/-- The place of a mention. -/
def address : Mention → Address
  | introduces a _ => a
  | uses a _ => a

/-- A mention introduces a name. -/
def Introduces (name : String) : Mention → Prop
  | introduces _ l => l.name = name
  | uses _ _ => False

/-- How often a name is used before it is introduced anew. -/
def heard (name : String) : List Mention → Nat
  | [] => 0
  | introduces _ l :: ms => if l.name = name then 0 else heard name ms
  | uses _ used :: ms => (if used = name then 1 else 0) + heard name ms

/-- The locals that some mentions introduce, with their uses. -/
def settled : List Mention → List Local
  | [] => []
  | introduces _ l :: ms => { l with uses := l.uses + heard l.name ms } :: settled ms
  | uses _ _ :: ms => settled ms

/-- Within a part of a body, a name is used only behind another introduction of it. -/
def Captured (root : Address) (name : String) (ms : List Mention) : Prop :=
  ∀ front a back, ms = front ++ uses a name :: back → root <:+ a →
    ∃ m ∈ front, m.Introduces name ∧ root <:+ m.address

variable {name used : String} {a : Address} {l : Local} {ms : List Mention}

theorem heard_concat_introduces : heard name (ms ++ [introduces a l]) = heard name ms := by
  induction ms with
  | nil => simp [heard]
  | cons m ms ih => cases m <;> simp only [List.cons_append, heard, ih]

theorem heard_concat_uses_self (h : ∀ l ∈ settled ms, l.name ≠ name) :
    heard name (ms ++ [uses a name]) = heard name ms + 1 := by
  induction ms with
  | nil => simp [heard]
  | cons m ms ih =>
    cases m with
    | introduces b l =>
      obtain ⟨hl, hms⟩ := List.forall_mem_cons.mp h
      simp only [List.cons_append, heard, if_neg hl, ih hms]
    | uses b used => simp only [List.cons_append, heard, ih h, Nat.add_assoc]

theorem heard_concat_uses_of_ne (h : used ≠ name ∨ ∃ l ∈ settled ms, l.name = name) :
    heard name (ms ++ [uses a used]) = heard name ms := by
  induction ms with
  | nil =>
    have hne : used ≠ name := h.resolve_right (by simp [settled])
    simp [heard, hne]
  | cons m ms ih =>
    cases m with
    | introduces b l =>
      simp only [List.cons_append, heard]
      split
      · rfl
      · next hl =>
        refine ih (h.imp_right ?_)
        rintro ⟨k, hk, hname⟩
        rcases List.mem_cons.mp hk with rfl | hk
        · exact absurd hname hl
        · exact ⟨k, hk, hname⟩
    | uses b other => simp only [List.cons_append, heard, ih h]

theorem settled_concat_introduces : settled (ms ++ [introduces a l]) = settled ms ++ [l] := by
  induction ms with
  | nil => simp [settled, heard]
  | cons m ms ih =>
    cases m <;> simp only [List.cons_append, settled, ih, heard_concat_introduces]

/-- A use counts for the local of the name that comes last. -/
theorem count_concat (ls : List Local) (k : Local) :
    Scope.use.count name (ls ++ [k]) = if ∃ l ∈ ls, l.name = name then
      Scope.use.count name ls ++ [k] else ls ++ Scope.use.count name [k] := by
  induction ls with
  | nil => simp
  | cons l ls ih =>
    rw [List.cons_append, Scope.use.count]
    by_cases hl : l.name = name
    · simp [hl, Scope.use.count]
    · simp only [beq_iff_eq, hl, if_false, ih, List.exists_mem_cons_iff, false_or, Scope.use.count]
      split <;> rfl

theorem count_eq_self {ls : List Local} (h : ∀ l ∈ ls, l.name ≠ name) :
    Scope.use.count name ls = ls := by
  induction ls with
  | nil => rfl
  | cons l ls ih =>
    obtain ⟨hl, hls⟩ := List.forall_mem_cons.mp h
    simp [Scope.use.count, hl, ih hls]

/-- A use that is heard last counts for the local of the name that was introduced last. -/
theorem settled_concat_uses :
    settled (ms ++ [uses a name]) = (Scope.use.count name (settled ms).reverse).reverse := by
  -- the first local gets the use if no later one has the name, and is left as it is otherwise
  induction ms with
  | nil => rfl
  | cons m ms ih =>
    cases m with
    | introduces b l =>
      simp only [List.cons_append, settled, List.reverse_cons, count_concat, List.mem_reverse, ih]
      split
      · next h =>
        have hheard : heard l.name (ms ++ [uses a name]) = heard l.name ms := by
          refine heard_concat_uses_of_ne ?_
          rw [or_iff_not_imp_left, not_not]
          rintro rfl
          exact h
        rw [hheard, List.reverse_append, List.reverse_singleton, List.singleton_append]
      · next h =>
        have hnone : ∀ k ∈ settled ms, k.name ≠ name := fun k hk hname => h ⟨k, hk, hname⟩
        rw [count_eq_self fun k hk => hnone k (List.mem_reverse.mp hk), List.reverse_append,
          List.reverse_reverse]
        by_cases hl : l.name = name
        · subst hl
          simp [Scope.use.count, heard_concat_uses_self hnone, Nat.add_assoc]
        · simp [Scope.use.count, hl, heard_concat_uses_of_ne (.inl (Ne.symm hl))]
    | uses b used => exact ih

theorem mem_settled_iff : l ∈ settled ms ↔ ∃ front a k back,
    ms = front ++ introduces a k :: back ∧ l = { k with uses := k.uses + heard k.name back } := by
  -- along the mentions: the local is the one introduced first, or a later one
  induction ms with
  | nil => simp [settled]
  | cons m ms ih =>
    have hsplit {P : Address → Local → List Mention → Prop} :
        (∃ front a k back, m :: ms = front ++ introduces a k :: back ∧ P a k back) ↔
          (∃ a k, m = introduces a k ∧ P a k ms) ∨
            ∃ front a k back, ms = front ++ introduces a k :: back ∧ P a k back := by
      constructor
      · rintro ⟨front, a, k, back, hsplit, h⟩
        rcases List.cons_eq_append_iff.mp hsplit with ⟨rfl, hcons⟩ | ⟨front, rfl, rfl⟩
        · obtain ⟨rfl, rfl⟩ := List.cons.inj hcons
          exact .inl ⟨a, k, rfl, h⟩
        · exact .inr ⟨front, a, k, back, rfl, h⟩
      · rintro (⟨a, k, rfl, h⟩ | ⟨front, a, k, back, rfl, h⟩)
        · exact ⟨[], a, k, ms, rfl, h⟩
        · exact ⟨m :: front, a, k, back, rfl, h⟩
    rw [hsplit, ← ih]
    cases m with
    | introduces b k => simp [settled]
    | uses b used => simp [settled]

variable {root : Address}

theorem captured_nil : Captured root name [] := by
  intro front b back hsplit
  simp at hsplit

theorem captured_introduces_cons : Captured root name (introduces a l :: ms) ↔
    l.name = name ∧ root <:+ a ∨ Captured root name ms := by
  constructor
  · intro h
    rw [or_iff_not_imp_left]
    rintro hl front b back rfl hb
    obtain ⟨m, hm, hname, hroot⟩ := h (introduces a l :: front) b back rfl hb
    rcases List.mem_cons.mp hm with rfl | hm
    · exact absurd ⟨hname, hroot⟩ hl
    · exact ⟨m, hm, hname, hroot⟩
  · intro h front b back hsplit hb
    rcases List.cons_eq_append_iff.mp hsplit with ⟨-, hcons⟩ | ⟨front, rfl, rfl⟩
    · cases hcons
    · rcases h with ⟨hname, hroot⟩ | h
      · exact ⟨_, List.mem_cons_self, hname, hroot⟩
      · obtain ⟨m, hm, hcaptures⟩ := h front b back rfl hb
        exact ⟨m, List.mem_cons_of_mem _ hm, hcaptures⟩

theorem captured_uses_cons : Captured root name (uses a used :: ms) ↔
    ¬(used = name ∧ root <:+ a) ∧ Captured root name ms := by
  constructor
  · intro h
    refine ⟨?_, ?_⟩
    -- With nothing in front of the use, no introduction could capture it.
    · rintro ⟨rfl, hroot⟩
      obtain ⟨m, hm, -⟩ := h [] a ms rfl hroot
      cases hm
    · rintro front b back rfl hb
      obtain ⟨m, hm, hname, hroot⟩ := h (uses a used :: front) b back rfl hb
      rcases List.mem_cons.mp hm with rfl | hm
      · cases hname
      · exact ⟨m, hm, hname, hroot⟩
  · rintro ⟨hused, h⟩ front b back hsplit hb
    rcases List.cons_eq_append_iff.mp hsplit with ⟨rfl, hcons⟩ | ⟨front, rfl, rfl⟩
    · obtain ⟨hhead, rfl⟩ := List.cons.inj hcons
      cases hhead
      exact absurd ⟨rfl, hb⟩ hused
    · obtain ⟨m, hm, hcaptures⟩ := h front b back rfl hb
      exact ⟨m, List.mem_cons_of_mem _ hm, hcaptures⟩

/-- A name is not used before it is introduced anew if and only if all uses are behind another
introduction. -/
theorem heard_eq_zero_iff : heard name ms = 0 ↔ Captured [] name ms := by
  induction ms with
  | nil => exact iff_of_true rfl captured_nil
  | cons m ms ih =>
    cases m with
    | introduces b l =>
      rw [heard, captured_introduces_cons, ← ih]
      by_cases hl : l.name = name <;> simp [hl]
    | uses b used =>
      rw [heard, captured_uses_cons, ← ih]
      by_cases hused : used = name <;> simp [hused]

/-- In the order of a walk, uses in a part of a body that are captured at all are captured within
the part. -/
theorem Captured.within (h : Captured [] name ms)
    (horder : (introduces a l :: ms).Pairwise fun m k => m.address = k.address ∨
      Before m.address k.address) (hroot : root <:+ a) : Captured root name ms := by
  rintro front b back rfl hb
  obtain ⟨m, hm, hname, -⟩ := h front b back rfl List.nil_suffix
  refine ⟨m, hm, hname, ?_⟩
  -- the other introduction lies between the first one and the use, which are both in the part
  obtain ⟨hfirst, hrest⟩ := List.pairwise_cons.mp horder
  have hafter := hfirst m (List.mem_append_left _ hm)
  have hbefore := (List.pairwise_append.mp hrest).2.2 m hm _ List.mem_cons_self
  rcases hafter with hafter | hafter
  · exact hafter ▸ hroot
  · rcases hbefore with hbefore | hbefore
    · exact hbefore ▸ hb
    · exact Address.within_of_between hroot hb hafter hbefore

end Mention

/-! ### The scope of a member -/

namespace Scope

/-- What a mention does to a scope. -/
def hear (s : Scope) : Mention → Scope
  | .introduces _ l => { s with locals := s.locals ++ [l] }
  | .uses _ name => s.use name

/-- The locals of a scope that hears of some mentions. -/
theorem foldl_hear (s : Scope) (ms : List Mention) (h : s.locals = []) :
    ms.foldl hear s = { s with locals := Mention.settled ms } := by
  -- from the back, since a scope changes with each mention what it has made of those before
  induction ms using List.reverseRecOn with
  | nil => rw [Mention.settled, ← h, List.foldl_nil]
  | append_singleton ms m ih =>
    rw [List.foldl_append, ih]
    cases m with
    | introduces a l => rw [Mention.settled_concat_introduces]; rfl
    | uses a name => rw [Mention.settled_concat_uses]; rfl

end Scope

/-- The local that a parameter introduces. -/
def Param.toLocal (p : Param Node) : Local :=
  { name := p.name, kind := .parameter, type := p.type, span := p.nameSpan }

namespace Visit

/-- The locals that a node of a body introduces. -/
def introduced (v : Visit Bool) : List Local :=
  match v.node with
  | .localDecl _ type isConst _ vars =>
    let kind := if v.inherited && v.address.head? == some 0 then LocalKind.usingResource
      else .localVariable
    vars.map fun d => { name := d.name, kind, type, span := d.nameSpan, isConst }
  | .foreachStmt _ type name span _ _ _ => [{ kind := .foreachVariable, name, type, span }]
  | .catchClause span type name _ _ => [{ kind := .catchVariable, name, type, span }]
  | .isExpr span _ type _ name _ => [{ kind := .pattern, name, type, span }]
  | .caseLabel span _ type name _ => [{ kind := .pattern, name, type, span }]
  | .declExpr span type name => [{ kind := .outVariable, name, type, span }]
  | .localFunc _ f =>
    { name := f.name, kind := .function, type := some f.returnType, span := f.nameSpan } ::
      f.params.map Param.toLocal
  | .lambda _ params _ _ => params.map Param.toLocal
  | _ => []

end Visit

namespace Mention

/-- Locals are introduced at a place, except for those whose names mark them as unused. -/
def ofLocals (a : Address) (ls : List Local) : List Mention :=
  (ls.filter fun l => !isDiscard l.name).map (.introduces a)

theorem foldl_hear_ofLocals (a : Address) (ls : List Local) (s : Scope) :
    (ofLocals a ls).foldl Scope.hear s = ls.foldl Scope.declare s := by
  rw [ofLocals, List.foldl_map, List.foldl_filter]
  refine List.foldl_ext _ _ _ fun s l _ => ?_
  rw [Scope.declare]
  cases isDiscard l.name <;> rfl

end Mention

/-- The mentions at a node of a body. -/
def Visit.mentions (v : Visit Bool) : List Mention :=
  match v.node with
  | .ident _ name _ => [.uses v.address name]
  | _ => Mention.ofLocals v.address v.introduced

namespace Scope

theorem declareParams_eq (s : Scope) (ps : List (Param Node)) :
    s.declareParams ps = (ps.map Param.toLocal).foldl declare s := by
  rw [declareParams, List.foldl_map]
  rfl

/-- A scope takes from a node what it mentions. -/
theorem visit_eq (s : Scope) (v : Visit Bool) : s.visit v = v.mentions.foldl hear s := by
  obtain ⟨address, resource, n⟩ := v
  cases n with
  | ident span name args => rfl
  | _ =>
    simp only [Visit.mentions, Mention.foldl_hear_ofLocals, Visit.introduced, visit,
      declareParams_eq, List.foldl_map, List.foldl_cons, List.foldl_nil]

/-- Where a walk begins does not matter to a scope. -/
theorem visit_address (s : Scope) (v : Visit Bool) (root : Address)
    (h : v.inherited = true → v.address ≠ []) :
    s.visit { v with address := v.address ++ root } = s.visit v := by
  have hhead : (v.inherited && (v.address ++ root).head? == some 0) =
      (v.inherited && v.address.head? == some 0) := by
    cases hresource : v.inherited with
    | false => rfl
    | true =>
      obtain ⟨i, a, ha⟩ := List.exists_cons_of_ne_nil (h hresource)
      rw [ha, List.cons_append, List.head?_cons, List.head?_cons]
  obtain ⟨address, resource, n⟩ := v
  cases n <;> simp only [visit]
  dsimp only at hhead
  rw [hhead]

/-- The walk over a body, which stands at a place of its own. -/
def bodyVisits (body : Node) (root : Address) : List (Visit Bool) :=
  body.visits (fun v => some (opensResource v.node)) false root

theorem collect_eq (s : Scope) (body : Node) (root : Address) :
    s.collect body = ((bodyVisits body root).flatMap Visit.mentions).foldl hear s := by
  have hplaces : bodyVisits body root =
      (bodyVisits body []).map fun v => { v with address := v.address ++ root } :=
    Node.visits_below (fun _ _ => rfl) body false root []
  have hvisited (v : Visit Bool) (hv : v ∈ bodyVisits body []) :
      v.inherited = true → v.address ≠ [] := by
    cases Node.visited_of_mem_visits hv with
    | root => nofun
    | child _ _ _ => exact fun _ => List.cons_ne_nil _ _
  rw [List.foldl_flatMap, hplaces, List.foldl_map]
  refine List.foldl_ext _ _ _ fun s v hv => ?_
  rw [← visit_eq, visit_address s v root (hvisited v hv)]

end Scope

/-- The mentions in the bodies of a member: its parameters at first, then what each body
mentions. -/
def Node.mentions (n : Node) : List Mention :=
  Mention.ofLocals [] (n.params.map Param.toLocal) ++
    n.bodies.zipIdx.flatMap fun b => (Scope.bodyVisits b.1 [b.2]).flatMap Visit.mentions

/-- The scope of a declaration has the locals that its bodies mention. -/
theorem Scope.collectDecl_eq (s : Scope) (d : Declared) (h : s.locals = []) : s.collectDecl d =
    { s with decl := some (d.address, d.node), locals := Mention.settled d.node.mentions } := by
  have hbodies (bs : List Node) (i : Nat) (s : Scope) : bs.foldl collect s =
      ((bs.zipIdx i).flatMap fun b => (bodyVisits b.1 [b.2]).flatMap Visit.mentions).foldl hear s := by
    induction bs generalizing i s with
    | nil => rfl
    | cons b bs ih =>
      rw [List.foldl_cons, collect_eq s b [i], ih (i + 1), List.zipIdx_cons, List.flatMap_cons,
        List.foldl_append]
  rw [collectDecl, hbodies _ 0, declareParams_eq, ← Mention.foldl_hear_ofLocals [],
    ← List.foldl_append]
  exact foldl_hear { s with decl := some (d.address, d.node) } d.node.mentions h

/-- The locals of a file are those that its members mention. -/
theorem flatMap_locals_localScopes (u : CompilationUnit Node) :
    (localScopes u).scopes.flatMap (·.locals) =
      u.declarations.flatMap fun d => Mention.settled d.node.mentions := by
  have hmember (l : LocalScopes) (d : Declared) : (l.addMember d).scopes.flatMap (·.locals) =
      l.scopes.flatMap (·.locals) ++ Mention.settled d.node.mentions := by
    rw [LocalScopes.addMember_eq]
    split
    · -- a member that gets no scope has nothing that mentions names
      next h =>
      obtain ⟨hbodies, hparams⟩ : d.node.bodies = [] ∧ d.node.params = [] := by simpa using h
      simp [Node.mentions, hbodies, hparams, Mention.ofLocals, Mention.settled]
    · simp [Scope.collectDecl_eq]
  -- along the declarations, each of which adds what it mentions
  have hfold (ds : List Declared) (l : LocalScopes) :
      (ds.foldl LocalScopes.addMember l).scopes.flatMap (·.locals) =
        l.scopes.flatMap (·.locals) ++
          ds.flatMap fun d => Mention.settled d.node.mentions := by
    induction ds generalizing l with
    | nil => simp
    | cons d ds ih => rw [List.foldl_cons, ih, hmember, List.flatMap_cons, List.append_assoc]
  rw [localScopes, hfold]
  rfl

/-! ### The order of mentions -/

theorem Visit.address_of_mem_mentions {v : Visit Bool} {m : Mention} (h : m ∈ v.mentions) :
    m.address = v.address := by
  obtain ⟨address, resource, n⟩ := v
  cases n with
  | ident span name args =>
    obtain rfl := List.mem_singleton.mp h
    rfl
  | _ =>
    obtain ⟨l, -, rfl⟩ := List.mem_map.mp h
    rfl

/-- A walk over bodies comes to places one after the other. -/
theorem Node.pairwise_mentions (n : Node) :
    n.mentions.Pairwise fun m k => m.address = k.address ∨ Before m.address k.address := by
  -- each mention is made at a node of its body
  have hplace {b : Node × Nat} {m : Mention}
      (h : m ∈ (Scope.bodyVisits b.1 [b.2]).flatMap Visit.mentions) : [b.2] <:+ m.address := by
    obtain ⟨v, hv, hm⟩ := List.mem_flatMap.mp h
    exact Visit.address_of_mem_mentions hm ▸ (Node.visited_of_mem_visits hv).suffix
  have hparam {m : Mention} (h : m ∈ Mention.ofLocals [] (n.params.map Param.toLocal)) :
      m.address = [] := by
    obtain ⟨l, -, rfl⟩ := List.mem_map.mp h
    rfl
  refine List.pairwise_append.mpr ⟨?_, List.pairwise_flatMap.mpr ⟨fun b _ => ?_, ?_⟩, ?_⟩
  · exact List.pairwise_of_forall_mem_list fun m hm k hk =>
      .inl ((hparam hm).trans (hparam hk).symm)
  · refine List.pairwise_flatMap.mpr ⟨fun v _ => ?_, ?_⟩
    · exact List.pairwise_of_forall_mem_list fun m hm k hk =>
        .inl ((Visit.address_of_mem_mentions hm).trans (Visit.address_of_mem_mentions hk).symm)
    · refine (Node.pairwise_before_visits _ _ _ _).imp fun hvw m hm k hk => .inr ?_
      rwa [Visit.address_of_mem_mentions hm, Visit.address_of_mem_mentions hk]
  · exact (Address.pairwise_zipIdx n.bodies).imp fun hbc m hm k hk =>
      .inr (Address.before_of_children hbc (hplace hm) (hplace hk))
  · intro m hm k hk
    obtain ⟨b, -, hk⟩ := List.mem_flatMap.mp hk
    rw [hparam hm]
    refine .inr (Address.before_of_suffix List.nil_suffix ?_)
    rintro hnil
    exact absurd (hnil ▸ hplace hk).length_le (by simp)

/-! ### Reports -/

/-- A local is reported if it is a local variable without uses. -/
theorem mem_findings_unusedVariable_iff {u : CompilationUnit Node} {s : Session} {d : Diagnostic} :
    d ∈ Passes.flow.findings u (Passes.symbols.advance u s) ∧ d.code = .unusedVariable ↔
      ∃ l ∈ (localScopes u).scopes.flatMap (·.locals), l.kind = .localVariable ∧ l.uses = 0 ∧
        d = s.finding .unusedVariable l.span
          s!"Local variable '{l.name}' is declared but never used" := by
  have hfindings : Passes.flow.findings u (Passes.symbols.advance u s) =
      Passes.unusedLocals s (localScopes u) ++
        runRules u (Passes.symbols.advance u s) Passes.flowRules := by
    refine Entry.findings_of_report rfl (congrArg (Session.report _) ?_)
    exact congrArg (· ++ _) (List.append_nil _)
  -- the rules that the pass runs report under other codes
  have hrules : d ∈ runRules u (Passes.symbols.advance u s) Passes.flowRules →
      d.code ≠ .unusedVariable := fun hd hcode => by
    have hmem := Entry.emits_flowRules u _ d hd
    rw [hcode] at hmem
    exact absurd hmem (by decide)
  rw [hfindings, List.mem_append, Passes.unusedLocals]
  constructor
  · rintro ⟨hd | hd, hcode⟩
    · obtain ⟨sc, hsc, hd⟩ := List.mem_flatMap.mp hd
      obtain ⟨l, hl, rfl⟩ := List.mem_map.mp hd
      obtain ⟨hl, hunused⟩ := List.mem_filter.mp hl
      obtain ⟨hkind, huses⟩ : l.kind = .localVariable ∧ l.uses = 0 := by simpa using hunused
      exact ⟨l, List.mem_flatMap.mpr ⟨sc, hsc, hl⟩, hkind, huses, rfl⟩
    · exact absurd hcode (hrules hd)
  · rintro ⟨l, hl, hkind, huses, rfl⟩
    obtain ⟨sc, hsc, hl⟩ := List.mem_flatMap.mp hl
    refine ⟨.inl (List.mem_flatMap.mpr ⟨sc, hsc, List.mem_map.mpr ⟨l, ?_, rfl⟩⟩), code_finding ..⟩
    exact List.mem_filter.mpr ⟨hl, by simp [hkind, huses]⟩

/-- Locals are introduced without uses. -/
theorem Node.uses_of_mem_mentions {n : Node} {a : Address} {l : Local}
    (h : .introduces a l ∈ n.mentions) : l.uses = 0 := by
  have hlocals {ls : List Local} {b : Address} (hls : ∀ k ∈ ls, k.uses = 0)
      (hl : .introduces a l ∈ Mention.ofLocals b ls) : l.uses = 0 := by
    obtain ⟨k, hk, heq⟩ := List.mem_map.mp hl
    obtain ⟨-, rfl⟩ := Mention.introduces.inj heq
    exact hls k (List.mem_filter.mp hk).1
  rcases List.mem_append.mp h with h | h
  · exact hlocals (by simp [Param.toLocal]) h
  · obtain ⟨b, -, h⟩ := List.mem_flatMap.mp h
    obtain ⟨⟨address, resource, m⟩, -, h⟩ := List.mem_flatMap.mp h
    cases m with
    | ident span name args => cases List.mem_singleton.mp h
    | _ => exact hlocals (by simp [Visit.introduced, Param.toLocal]) h

/-- A local is reported as unused if and only if a member introduces it as a local variable and each
use of its name behind the declaration stands behind another introduction of the name. With the use,
the other introduction lies in every part of the member that is around the declaration, be it the
block of the declaration. -/
theorem unusedVariable_reported_iff (u : CompilationUnit Node) (s : Session) (d : Diagnostic) :
    d ∈ Passes.flow.findings u (Passes.symbols.advance u s) ∧ d.code = .unusedVariable ↔
      ∃ m ∈ u.declarations, ∃ front a l back,
        m.node.mentions = front ++ .introduces a l :: back ∧ l.kind = .localVariable ∧
          (∀ root, root <:+ a → Mention.Captured root l.name back) ∧
            d = s.finding .unusedVariable l.span
              s!"Local variable '{l.name}' is declared but never used" := by
  rw [mem_findings_unusedVariable_iff, flatMap_locals_localScopes]
  constructor
  · rintro ⟨l, hl, hkind, huses, rfl⟩
    obtain ⟨m, hm, hl⟩ := List.mem_flatMap.mp hl
    obtain ⟨front, a, k, back, hsplit, rfl⟩ := Mention.mem_settled_iff.mp hl
    -- Without any use there is none behind the declaration.
    have hheard : Mention.heard k.name back = 0 := (Nat.add_eq_zero_iff.mp huses).2
    have horder := hsplit ▸ m.node.pairwise_mentions
    refine ⟨m, hm, front, a, k, back, hsplit, hkind, fun root hroot => ?_, rfl⟩
    exact (Mention.heard_eq_zero_iff.mp hheard).within (List.pairwise_append.mp horder).2.1 hroot
  · rintro ⟨m, hm, front, a, l, back, hsplit, hkind, hcaptured, rfl⟩
    have hmem : .introduces a l ∈ m.node.mentions := by simp [hsplit]
    refine ⟨_, List.mem_flatMap.mpr ⟨m, hm, Mention.mem_settled_iff.mpr
      ⟨front, a, l, back, hsplit, rfl⟩⟩, hkind, ?_, rfl⟩
    -- The part around the declaration may be the whole member.
    have hheard := Mention.heard_eq_zero_iff.mpr (hcaptured [] List.nil_suffix)
    simp only [Node.uses_of_mem_mentions hmem, hheard]

/-- The variables that a statement declares. -/
def Node.declaredVars : Node → List String
  | .localDecl _ _ _ _ vars => vars.map (·.name)
  | _ => []

/-- The identifiers and literals of a node outside of nested functions. -/
def Node.ownWords (n : Node) : List String :=
  let through : Node → Bool
    | .lambda .. | .localFunc .. => false
    | _ => true
  (n.reached through).filterMap fun
    | .ident _ name _ => some name
    | .literal _ _ value => some value
    | _ => none

/-- The statements of a block. -/
def Node.statements : Node → List Node
  | .block _ stmts => stmts
  | _ => []

/-- The messages on unused locals for a file, and for each statement of the body of a member what it
declares and which words it has. -/
def unusedInText (text : List UInt8) : Option (List String × List (List String × List String)) :=
  (parse text).toOption.map fun u =>
    ((Passes.flow.findings u (Passes.symbols.advance u { document := ⟨"A.cs", text⟩ })).filterMap
        fun d => if d.code = .unusedVariable then some d.message else none,
      u.declarations.flatMap fun m => m.node.bodies.flatMap fun b =>
        b.statements.map fun s => (s.declaredVars, s.ownWords))

/-- Locals are reported although they are used: behind a lambda whose parameter has the same name,
and in the hole of an interpolated string. -/
theorem used_local_reported :
    unusedInText
        ("class C\x7bvoid M()\x7bint x=1;F(x=>x);G(x);\x7d\x7d".toList.map Lexer.ascii) =
      some (["Local variable 'x' is declared but never used"],
        [(["x"], ["1"]), ([], ["F"]), ([], ["G", "x"])]) ∧
    unusedInText
        ("class C\x7bvoid M()\x7bint x=1;F($\"\x7bx\x7d\");\x7d\x7d".toList.map Lexer.ascii) =
      some (["Local variable 'x' is declared but never used"],
        [(["x"], ["1"]), ([], ["F", "$\"\x7bx\x7d\""])]) := by
  rw [Lexer.ascii_ofList, Lexer.ascii_ofList]
  decide +kernel

end CSharpAudit
