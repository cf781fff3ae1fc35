import CSharpAudit.Proofs.Cursors
import CSharpAudit.Proofs.DeadStatements

/-!
# Objects made in loops

What is made on every turn of a loop is to be made once instead. A part of a loop is evaluated on
every turn if it is the body, the condition or what follows the body; the initialisers of a `for`
loop and the collection of a `foreach` loop are evaluated once, in front of the first turn.

The rule looks at the number of loops around a node, whichever part of them the node stands in. So
an object is also reported if it is made once, as long as that happens in the head of a loop.

## Main definitions

* `Node.startParts`, `Node.repeatedParts` — the parts of a loop
* `PassesLoop` — the way from the root to a place leads through a part of a loop
* `Repeated`, `Started` — a place in a part that is evaluated on every turn, or once

## Main results

* `Node.children_eq_of_isLoop` — a loop has no other parts
* `Cursor.inLoop_iff` — the nodes that stand in a loop
* `allocation_found_iff` — the objects that are reported
-/

namespace CSharpAudit

/-! ### Parts of loops -/

namespace Node

/-- The parts of a loop that are evaluated in front of its first turn; the type of the variable of a
`foreach` loop stands among them. -/
def startParts : Node → List Node
  | .forStmt _ init _ _ _ => init
  | .foreachStmt _ ty _ _ collection _ _ => ty.toList.map .type ++ [collection]
  | _ => []

/-- The parts of a loop that are evaluated on every turn. -/
def repeatedParts : Node → List Node
  | .forStmt _ _ cond post body => cond.toList ++ post ++ [body]
  | .foreachStmt _ _ _ _ _ body _ => [body]
  | .whileStmt _ cond body => [cond, body]
  | .doStmt _ body cond => [body, cond]
  | _ => []

/-- A loop has no other parts, and those that are repeated stand behind the others. -/
theorem children_eq_of_isLoop {n : Node} (h : n.isLoop = true) :
    n.children = n.startParts ++ n.repeatedParts := by
  cases n with
  | forStmt => simp [children, startParts, repeatedParts]
  | foreachStmt => simp [children, startParts, repeatedParts]
  | whileStmt | doStmt => rfl
  | _ => cases h

/-- Below a type there are types only. -/
theorem exists_type_of_suffix {root n : Node} {above address : Address} {t : TypeRef}
    (hsuffix : above <:+ address) (habove : root.at? above = some (.type t))
    (hn : root.at? address = some n) : ∃ t', n = .type t' := by
  obtain ⟨way, rfl⟩ := hsuffix
  induction way generalizing n with
  | nil => exact ⟨t, Option.some.inj (hn.symm.trans habove)⟩
  | cons i way ih =>
    obtain ⟨p, hp, hn⟩ := Option.bind_eq_some_iff.mp hn
    obtain ⟨t', rfl⟩ := ih hp
    obtain ⟨arg, -, rfl⟩ := List.mem_map.mp (List.mem_of_getElem? hn)
    exact ⟨arg, rfl⟩

end Node

/-- The way from the root of a tree to an address leads through the `i`-th part of a loop. -/
structure PassesLoop (root : Node) (address above : Address) (loop : Node) (i : Nat) : Prop where
  at_eq : root.at? above = some loop
  isLoop_eq : loop.isLoop = true
  below : i :: above <:+ address

/-- An address in a part of some loop that is evaluated on every turn. -/
def Repeated (root : Node) (address : Address) : Prop :=
  ∃ above loop i, PassesLoop root address above loop i ∧ loop.startParts.length ≤ i

/-- An address in an initialiser of some `for` loop or in the collection of some `foreach` loop. -/
def Started (root : Node) (address : Address) : Prop :=
  ∃ above loop i part, PassesLoop root address above loop i ∧ loop.startParts[i]? = some part ∧
    ∀ t, part ≠ .type t

section Places

variable {root : Node} {address above : Address}

theorem not_repeated_nil : ¬Repeated root [] := by
  rintro ⟨above, loop, i, ⟨-, -, hbelow⟩, -⟩
  cases List.suffix_nil.mp hbelow

/-- A place is repeated if it is a repeated part of a loop or stands below a place that is. -/
theorem repeated_cons_iff {i : Nat} : Repeated root (i :: address) ↔
    (∃ loop, root.at? address = some loop ∧ loop.isLoop = true ∧ loop.startParts.length ≤ i) ∨
      Repeated root address := by
  constructor
  · rintro ⟨above, loop, j, ⟨hat, hloop, hbelow⟩, hle⟩
    rcases List.suffix_cons_iff.mp hbelow with heq | hbelow
    · obtain ⟨rfl, rfl⟩ := List.cons.inj heq
      exact .inl ⟨loop, hat, hloop, hle⟩
    · exact .inr ⟨above, loop, j, ⟨hat, hloop, hbelow⟩, hle⟩
  · rintro (⟨loop, hat, hloop, hle⟩ | ⟨above, loop, j, ⟨hat, hloop, hbelow⟩, hle⟩)
    · exact ⟨address, loop, i, ⟨hat, hloop, List.suffix_rfl⟩, hle⟩
    · exact ⟨above, loop, j, ⟨hat, hloop, hbelow.trans (List.suffix_cons i address)⟩, hle⟩

/-- Whether an address lies in a part of some loop that is evaluated on every turn. -/
def isRepeated (root : Node) : Address → Bool
  | [] => false
  | i :: address =>
    (root.at? address).any (fun loop => loop.isLoop && loop.startParts.length ≤ i) ||
      isRepeated root address

theorem isRepeated_iff : isRepeated root address = true ↔ Repeated root address := by
  induction address with
  | nil => exact iff_of_false Bool.false_ne_true not_repeated_nil
  | cons i address ih =>
    rw [repeated_cons_iff, isRepeated, Bool.or_eq_true, ih]
    refine or_congr_left ?_
    simp [Option.any_eq_true]

/-- The nodes above a place are those through whose children the way leads to it. -/
theorem mem_tail_tails_iff : above ∈ address.tails.tail ↔ ∃ i, i :: above <:+ address := by
  cases address with
  | nil => simp
  | cons j address =>
    rw [List.tails, List.tail_cons, List.mem_tails]
    constructor
    · rintro ⟨way, rfl⟩
      refine ⟨(j :: way).getLast (List.cons_ne_nil j way), (j :: way).dropLast, ?_⟩
      rw [← List.singleton_append (l := above), ← List.append_assoc,
        List.dropLast_append_getLast, List.cons_append]
    · rintro ⟨i, hsuffix⟩
      rcases List.suffix_cons_iff.mp hsuffix with heq | hsuffix
      · exact (List.cons.inj heq).2 ▸ List.suffix_rfl
      · exact (List.suffix_cons i above).trans hsuffix

end Places

namespace Cursor

variable {root : Node} {c : Cursor}

/-- A node stands in a loop if one of the nodes above it is one. -/
theorem inLoop_iff_exists_mem (h : c.Describes root) :
    c.inLoop = true ↔ ∃ n ∈ c.ancestors, n.isLoop = true := by
  have hchain : c.chain = c.node :: c.ancestors := by
    have heq := h.chain_eq
    cases hc : c.chain with
    | nil => cases haddress : c.address <;> simp [hc, haddress] at heq
    | cons n ancestors =>
      have hhead : (some n : Option Node) = root.at? c.address := by
        cases haddress : c.address <;> rw [hc, haddress] at heq <;> exact (List.cons.inj heq).1
      rw [h.node_eq] at hhead
      rw [Option.some.inj hhead, Cursor.ancestors, hc, List.tail_cons]
  -- the number of loops that the cursor keeps includes the node itself
  have hloops := h.tracks.loops_eq
  rw [hchain, List.countP_cons] at hloops
  have hpos : 0 < c.ancestors.countP Node.isLoop ↔ ∃ n ∈ c.ancestors, n.isLoop = true :=
    List.countP_pos_iff
  rw [← hpos, inLoop]
  cases hloop : c.node.isLoop with
  | true =>
    rw [hloop, if_pos rfl] at hloops
    rw [if_pos rfl, decide_eq_true_eq]
    omega
  | false =>
    rw [hloop, if_neg Bool.false_ne_true] at hloops
    rw [if_neg Bool.false_ne_true, decide_eq_true_eq]
    omega

/-- A node stands in a loop if the way to it leads through a part of one. -/
theorem inLoop_iff_exists_passesLoop (h : c.Describes root) :
    c.inLoop = true ↔ ∃ above loop i, PassesLoop root c.address above loop i := by
  have hancestors : c.ancestors.map some = c.address.tails.tail.map root.at? := by
    rw [Cursor.ancestors, List.map_tail, h.chain_eq, List.map_tail]
  rw [inLoop_iff_exists_mem h]
  constructor
  · rintro ⟨loop, hmem, hloop⟩
    have hsome : some loop ∈ c.address.tails.tail.map root.at? :=
      hancestors ▸ List.mem_map_of_mem hmem
    obtain ⟨above, habove, hat⟩ := List.mem_map.mp hsome
    obtain ⟨i, hbelow⟩ := mem_tail_tails_iff.mp habove
    exact ⟨above, loop, i, hat, hloop, hbelow⟩
  · rintro ⟨above, loop, i, hat, hloop, hbelow⟩
    have hsome : some loop ∈ c.ancestors.map some := by
      rw [hancestors, ← hat]
      exact List.mem_map_of_mem (mem_tail_tails_iff.mpr ⟨i, hbelow⟩)
    obtain ⟨_, hmem, heq⟩ := List.mem_map.mp hsome
    exact ⟨loop, Option.some.inj heq ▸ hmem, hloop⟩

/-- A node that is no type stands in a loop if it is evaluated on every turn of some loop, or in
front of the first turn of one. -/
theorem inLoop_iff (h : c.Describes root) (htype : ∀ t, c.node ≠ .type t) :
    c.inLoop = true ↔ Repeated root c.address ∨ Started root c.address := by
  rw [inLoop_iff_exists_passesLoop h]
  constructor
  · rintro ⟨above, loop, i, hpasses⟩
    rcases Nat.lt_or_ge i loop.startParts.length with hlt | hle
    · refine .inr ⟨above, loop, i, loop.startParts[i], hpasses, List.getElem?_eq_getElem hlt, ?_⟩
      -- below the type of a loop variable there are types only
      intro t hpart
      have hchild : loop.children[i]? = some (.type t) := by
        rw [Node.children_eq_of_isLoop hpasses.isLoop_eq, List.getElem?_append_left hlt,
          List.getElem?_eq_getElem hlt, hpart]
      have hat : root.at? (i :: above) = some (.type t) := by
        rw [Node.at?, hpasses.at_eq, Option.bind_some, hchild]
      obtain ⟨t', ht'⟩ := Node.exists_type_of_suffix hpasses.below hat h.node_eq
      exact htype t' ht'
    · exact .inl ⟨above, loop, i, hpasses, hle⟩
  · rintro (⟨above, loop, i, hpasses, -⟩ | ⟨above, loop, i, -, hpasses, -⟩) <;>
      exact ⟨above, loop, i, hpasses⟩

end Cursor

/-! ### Reported objects -/

/-- The array or heavy object that an expression makes, and what to do about it. -/
def Node.allocation? : Node → Option (String × String)
  | .newExpr _ (some t) _ _ sizes =>
    if !sizes.isEmpty then some (s!"new {t.name}[]", Rules.arrayAdvice)
    else if Rules.heavyTypes.contains (lastSegment t.name) then
      some (s!"new {lastSegment t.name}", Rules.allocationAdvice (lastSegment t.name))
    else none
  | _ => none

/-- Whether an expression is what is thrown. -/
def Cursor.isThrown (c : Cursor) : Bool :=
  match c.parent with
  | some (.throwStmt ..) | some (.throwExpr ..) => true
  | _ => false

/-- What is told of an object that is made in a loop. -/
def Cursor.allocationFinding (s : Session) (c : Cursor) (what advice : String) : Diagnostic :=
  { s.finding .allocationInLoop c.node.span s!"Memory allocation ({what}) inside loop" with
    symbol := c.member, suggestion := advice }

theorem Node.ne_type_of_allocation? {n : Node} {what advice : String}
    (h : n.allocation? = some (what, advice)) (t : TypeRef) : n ≠ .type t := by
  rintro rfl
  cases h

/-- The rule tells of what a node makes, if that is not thrown and the node stands in a loop. -/
theorem Rules.visit_allocation (s : Session) (c : Cursor) :
    (Rules.allocation.visit s Rules.allocation.start c).2 =
      if !c.inLoop || c.isThrown then []
      else c.node.allocation?.toList.map fun (what, advice) => c.allocationFinding s what advice := by
  simp only [Rules.allocation, Rule.stateless]
  cases hnode : c.node with
  | newExpr span ty args init sizes =>
    cases ty with
    | none => simp [Node.allocation?]
    | some t =>
      dsimp only [Node.allocation?]
      refine ite_congr rfl (fun _ => rfl) fun _ => ?_
      simp only [Cursor.allocationFinding, hnode]
      split_ifs <;> rfl
  | _ => simp [Node.allocation?]

theorem Rules.mem_visit_allocation_iff {s : Session} {c : Cursor} {d : Diagnostic} :
    d ∈ (Rules.allocation.visit s Rules.allocation.start c).2 ↔ ∃ what advice,
      c.node.allocation? = some (what, advice) ∧ c.isThrown = false ∧ c.inLoop = true ∧
        d = c.allocationFinding s what advice := by
  rw [Rules.visit_allocation]
  split_ifs with h
  · refine iff_of_false List.not_mem_nil ?_
    rintro ⟨what, advice, -, hthrown, hloop, -⟩
    simp [hthrown, hloop] at h
  · rw [Bool.not_eq_true, Bool.or_eq_false_iff, Bool.not_eq_false'] at h
    simp [h, Option.mem_toList, eq_comm]

/-- The rules that share the walk with this one find other things. -/
theorem emits_of_mem_flowRules {r : Rule} (hr : r ∈ Passes.flowRules.take 3 ++
    Passes.flowRules.drop 4) :
    r.Emits [.unreachable, .emptyBlock, .stringConcatLoop, .collectionUsage] := by
  intro s state c
  simp only [Passes.flowRules, List.take_succ_cons, List.take_zero, List.drop_succ_cons,
    List.drop_zero, List.cons_append, List.nil_append, List.mem_cons, List.not_mem_nil,
    or_false] at hr
  rcases hr with rfl | rfl | rfl | rfl | rfl | rfl
  · exact (Rules.emits_unreachable s state c).mono (by decide)
  · exact (Rules.emits_emptyBlock s state c).mono (by decide)
  · exact (Rules.emits_stringConcat s state c).mono (by decide)
  · exact (Rules.emits_linearSearch s state c).mono (by decide)
  · exact (Rules.emits_nestedSearch s state c).mono (by decide)
  · exact (Rules.emits_collectionGrowth s state c).mono (by decide)

/-- Apart from locals that are not used, the pass finds what its rules find. -/
theorem filter_findings_flow {code : Code} (u : CompilationUnit Node) (s : Session)
    (hcode : code ≠ .unusedVariable) : (Passes.flow.findings u s).filter (·.code == code) =
      (runRules u s Passes.flowRules).filter (·.code == code) := by
  have hemits : Emits [.unusedVariable]
      (s.artifacts.scopes.toList.flatMap (Passes.unusedLocals s)) := by simp [Passes.unusedLocals]
  rw [Entry.findings_of_report (e := Passes.flow) rfl rfl, List.filter_append,
    hemits.filter_eq_nil (by simpa using hcode), List.nil_append]

/-- No other rule finds objects that are made in loops, and this one looks at each node by
itself. -/
theorem filter_findings_allocation (u : CompilationUnit Node) (s : Session) :
    (Passes.flow.findings u s).filter (·.code == .allocationInLoop) =
      u.cursors.flatMap fun c => (Rules.allocation.visit s Rules.allocation.start c).2 := by
  -- The other rules are in front of this one in the list or behind it.
  have hothers {rules : List Rule}
      (h : ∀ r ∈ rules, r ∈ Passes.flowRules.take 3 ++ Passes.flowRules.drop 4) :
      (∀ r ∈ rules, ¬r.MayEmit .allocationInLoop) ∧
        (runRules u s rules).filter (·.code == .allocationInLoop) = [] :=
    ⟨fun r hr hemits => absurd ((emits_of_mem_flowRules (h r hr)).mem_of_mayEmit hemits) (by decide),
      (emits_runRules u s fun r hr => emits_of_mem_flowRules (h r hr)).filter_eq_nil (by decide)⟩
  obtain ⟨hnoneFront, hfront⟩ := hothers fun r hr => List.mem_append_left _ hr
  obtain ⟨hnoneBehind, hbehind⟩ := hothers fun r hr => List.mem_append_right _ hr
  have hown : runRules u s [Rules.allocation] =
      u.cursors.flatMap fun c => (Rules.allocation.visit s Rules.allocation.start c).2 := by
    rw [runRules_eq_flatMap u fun r hr c => by obtain rfl := List.mem_singleton.mp hr; rfl]
    simp only [List.flatMap_singleton]
  have hsplit : Passes.flowRules =
      Passes.flowRules.take 3 ++ ([Rules.allocation] ++ Passes.flowRules.drop 4) := rfl
  rw [filter_findings_flow u s (by decide), hsplit, filter_runRules_append u s (.inl hnoneFront),
    hfront, List.nil_append, filter_runRules_append u s (.inr hnoneBehind), hbehind,
    List.append_nil, hown]
  refine Emits.filter_eq_self (emits_flatMap.mpr fun c _ => ?_)
  exact Rules.emits_allocation s _ c

/-- The arrays and heavy objects are reported that are made in a loop and not thrown: on every turn
of some loop, or in an initialiser of a `for` loop or in the collection of a `foreach` loop, though
these are evaluated once. -/
theorem allocation_found_iff (u : CompilationUnit Node) (s : Session) :
    (Passes.flow.findings u s).filter (·.code == .allocationInLoop) =
      (u.cursors.flatMap fun c => (Rules.allocation.visit s Rules.allocation.start c).2) ∧
    ∀ c ∈ u.cursors, ∀ d, d ∈ (Rules.allocation.visit s Rules.allocation.start c).2 ↔
      ∃ what advice, c.node.allocation? = some (what, advice) ∧ c.isThrown = false ∧
        (Repeated (.unit u) c.address ∨ Started (.unit u) c.address) ∧
          d = c.allocationFinding s what advice := by
  refine ⟨filter_findings_allocation u s, fun c hc d => ?_⟩
  rw [Rules.mem_visit_allocation_iff]
  refine exists₂_congr fun what advice => and_congr_right fun hmade => and_congr_right fun _ => ?_
  rw [Cursor.inLoop_iff (CompilationUnit.describes_of_mem hc).1 (Node.ne_type_of_allocation? hmade)]

/-- What a rule sees of an object: what is made, whether it is thrown, whether it stands in a loop
and whether it is made on every turn of one. -/
def Cursor.allocationTraits (u : CompilationUnit Node) (c : Cursor) : Bool × Bool × Bool × Bool :=
  (c.node.allocation?.isSome, c.isThrown, c.inLoop, isRepeated (.unit u) c.address)

/-- An array that is made on every turn of a loop. -/
def bodyArrayText : List UInt8 :=
  "class C\x7bvoid M()\x7bwhile(b)F(new int[1]);\x7d\x7d".toList.map Lexer.ascii

theorem bodyArrayText_traits : (parse bodyArrayText).toOption.any (fun u =>
    u.cursors.any fun c => c.allocationTraits u == (true, false, true, true)) = true := by
  rw [show bodyArrayText = _ from Lexer.ascii_ofList _]
  decide +kernel

/-- The array is reported. -/
theorem allocation_found_in_body : ∃ u, parse bodyArrayText = .ok u ∧ ∃ c ∈ u.cursors,
    Repeated (.unit u) c.address ∧
      ∀ s, (Rules.allocation.visit s Rules.allocation.start c).2 ≠ [] := by
  obtain ⟨u, hparse, hfacts⟩ := exists_parse_of_any bodyArrayText_traits
  obtain ⟨c, hc, htraits⟩ := List.any_eq_true.mp hfacts
  simp only [Cursor.allocationTraits, beq_iff_eq, Prod.mk.injEq] at htraits
  obtain ⟨hmade, hthrown, -, hrepeated⟩ := htraits
  obtain ⟨⟨what, advice⟩, hmade⟩ := Option.isSome_iff_exists.mp hmade
  have hrepeated := isRepeated_iff.mp hrepeated
  refine ⟨u, hparse, c, hc, hrepeated, fun s => ?_⟩
  exact List.ne_nil_of_mem (((allocation_found_iff u s).2 c hc _).mpr
    ⟨what, advice, hmade, hthrown, .inl hrepeated, rfl⟩)

/-- A list that is made in an initialiser. -/
def initializerListText : List UInt8 :=
  "class C\x7bvoid M()\x7bfor(var l=new List<int>();;)F(l);\x7d\x7d".toList.map Lexer.ascii

theorem initializerListText_traits : (parse initializerListText).toOption.any (fun u =>
    u.cursors.any fun c => c.allocationTraits u == (true, false, true, false)) = true := by
  rw [show initializerListText = _ from Lexer.ascii_ofList _]
  decide +kernel

/-- The list is reported, though it is made on no turn of a loop. -/
theorem allocation_found_in_initializer : ∃ u, parse initializerListText = .ok u ∧
    ∃ c ∈ u.cursors, ¬Repeated (.unit u) c.address ∧ ∀ s, ∃ d ∈ Passes.flow.findings u s,
      d.code = .allocationInLoop ∧ d.location = s.locate c.node.span := by
  obtain ⟨u, hparse, hfacts⟩ := exists_parse_of_any initializerListText_traits
  obtain ⟨c, hc, htraits⟩ := List.any_eq_true.mp hfacts
  simp only [Cursor.allocationTraits, beq_iff_eq, Prod.mk.injEq] at htraits
  obtain ⟨hmade, hthrown, hloop, honce⟩ := htraits
  obtain ⟨⟨what, advice⟩, hmade⟩ := Option.isSome_iff_exists.mp hmade
  refine ⟨u, hparse, c, hc, mt isRepeated_iff.mpr (Bool.eq_false_iff.mp honce), fun s =>
    ⟨c.allocationFinding s what advice, ?_, rfl, rfl⟩⟩
  have hfound : c.allocationFinding s what advice ∈
      (Passes.flow.findings u s).filter (·.code == .allocationInLoop) := by
    rw [filter_findings_allocation]
    refine List.mem_flatMap.mpr ⟨c, hc, ?_⟩
    exact Rules.mem_visit_allocation_iff.mpr ⟨what, advice, hmade, hthrown, hloop, rfl⟩
  exact (List.mem_filter.mp hfound).1

end CSharpAudit
