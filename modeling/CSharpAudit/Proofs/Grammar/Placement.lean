import CSharpAudit.Proofs.Grammar.Unit
import CSharpAudit.Proofs.Placement
import CSharpAudit.Proofs.Running

/-!
# Where the grammar places members

What is read one after the other lies one behind the other, so the members of a file are placed once
each member starts in front of all that is read as a part of it. For most members this is plain: the
first token is a modifier, the bracket of an attribute list, or part of the type or the name, and
parameters, initial values and bodies come later. The type of a member may start where the member
does, but no member is declared below a type. Fields, delegates and the members of enumerations have
no body, so nothing is asked of them.

Members and namespaces are nested to any depth. The productions for them are assumed to place what
they read at all later tokens, which an induction on the depth then provides.

## Main definitions

* `Layouts.Opens` — the attributes of a header stand behind the start of the declaration
* `Layouts.Places` — a production places what it reads
* `Layouts.UnitPlaced` — the entries of a file that have been read so far are placed
* `Layouts.WithinUnit` — what a file lists, another file and some nodes list too

## Main results

* `Layouts.Opens.leads` — a member leads if its parts, header and type aside, come later
* `Layouts.places_member`, `Layouts.places_namespaceDecl` — one level of nesting
* `Layouts.placed_unit` — a file is placed if members and namespaces are
* `Layouts.places_rules` — members and namespaces of any depth are placed
-/

namespace CSharpAudit

open Grammar

attribute [local simp] Layered.nodes Layered.erase NodeKind.node Node.children
  flatMap_singleton_eq_map

namespace Layouts

variable {ω α : Type} {L : Layouts ω} {i j k b : Nat} {self : Rules} {h : ω → Header}

/-! ### Declarations lead -/

/-- Attributes that stand behind the start of a token. -/
def Behind (L : Layouts ω) (i : Nat) (as : ω → List (Attribute Node)) : Prop :=
  ∀ w, ∀ a ∈ as w, L.start w i < a.span.start

/-- A later token starts later. -/
theorem start_lt_of_lt (w : ω) (hij : i < j) (hj : j ≤ L.size) : L.start w i < L.start w j :=
  Nat.lt_of_lt_of_le (L.start_lt_behind_of_lt w hij hj) (L.behind_le_start w j)

/-- Attributes stand behind the bracket that opens their list. -/
theorem reads_attributes_behind (hself : L.Good b self) (hb : b ≤ j + 1) :
    L.Reads (fun _ => attributes self) j fun as _ => L.Behind j as := by
  refine (Reads.repeatWhile (I := fun i as _ => L.Behind i as) fun k hk => ?_).bind ?_
  · refine (tests_is.optionalPart fun h => reads_attributeGroup hself (by omega) h).imp ?_
    rintro o l hl (⟨rfl, rfl⟩ | ⟨as, rfl, hkl, cs, has⟩)
    · exact .none (Nat.le_refl l)
    · refine .some ⟨hkl, fun w a ha => ?_⟩
      have hfits := has.fits w (.attribute a) (by simpa using ha)
      exact Nat.lt_of_lt_of_le (start_lt_of_lt w (Nat.lt_succ_self k) (by omega)) hfits.start_le
  · rintro groups k ⟨-, xs, rfl, hxs⟩
    refine .pure fun _ w a ha => ?_
    obtain ⟨as, has, ha⟩ := List.mem_flatten.mp ha
    obtain ⟨x, hx, rfl⟩ := List.mem_map.mp has
    obtain ⟨l, m, hl, -, hbehind⟩ := hxs x hx
    exact Nat.lt_of_le_of_lt (L.start_mono w hl) (hbehind w a ha)

/-- The attributes of a declaration stand behind its start. -/
theorem reads_header_behind (hself : L.Good b self) (hb : b ≤ j + 1) :
    L.Reads (fun _ => header self) j fun h _ => L.Behind j fun w => (h w).attributes := by
  simp only [header, reads_current]
  have hattributes : L.Reads (fun _ => optionalList (is "[") (attributes self)) j
      fun as _ => L.Behind j as := by
    refine Reads.bind tests_is fun c k hc => ?_
    rcases hc with ⟨rfl, rfl, -⟩ | ⟨rfl, rfl⟩
    · exact reads_attributes_behind hself hb
    · exact .pure fun _ w a ha => absurd ha List.not_mem_nil
  refine hattributes.bind fun as k has => ?_
  rw [reads_current]
  refine reads_modifiers.bindUniform fun mods l hl => ?_
  exact .pure fun _ => has

variable (L) in
/-- Headers that start with the token at `i` and whose attributes stand behind this start. -/
def Opens (i : Nat) (h : ω → Header) : Prop :=
  (∀ w, (h w).start = L.start w i) ∧ L.Behind i fun w => (h w).attributes

/-- What is laid from a later token on starts later. -/
theorem Laid.later {α : Type} [Layered α] {a : ω → α} {c : α} (ha : L.Laid j k a c) (hij : i < j)
    (hj : j ≤ L.size) (w : ω) : ∀ n ∈ Layered.nodes (a w), L.start w i < n.span.start :=
  fun n hn => Nat.lt_of_lt_of_le (start_lt_of_lt w hij hj) (ha.fits w n hn).start_le

/-- All below a declaration starts later if its parts do, header and type aside. -/
theorem Opens.later {w : ω} {c : Node} {rest : List Node} (hh : L.Opens i h)
    (hrest : ∀ n ∈ rest, L.start w i < n.span.start)
    (hc : c ∈ (h w).attributes.map .attribute ∨ (∃ t, c = .type t) ∨ c ∈ rest) :
    (∃ t, c = .type t) ∨ L.start w i < c.span.start := by
  rcases hc with hc | hc | hc
  · obtain ⟨a, ha, rfl⟩ := List.mem_map.mp hc
    exact .inr (hh.2 w a ha)
  · exact .inl hc
  · exact .inr (hrest c hc)

/-- A place inside a declaration stays inside when the declaration goes on. -/
theorem within_mono {w : ω} {s : Nat} (h : L.start w i ≤ s ∧ s < L.behind w j) (hjk : j ≤ k) :
    L.start w i ≤ s ∧ s < L.behind w k :=
  ⟨h.1, Nat.lt_of_lt_of_le h.2 (L.behind_mono w hjk)⟩

/-- A name that is a token or that starts with one stands between any indices around it. -/
theorem start_within (w : ω) (hij : i ≤ j) (hjk : j < k) (hk : k ≤ L.size) :
    L.start w i ≤ L.start w j ∧ L.start w j < L.behind w k :=
  ⟨L.start_mono w hij, L.start_lt_behind_of_lt w hjk hk⟩

/-- A member leads if its parts, header and type aside, come later. -/
theorem Opens.leads {w : ω} {n : Node} {name : Span} {rest : List Node} (hh : L.Opens i h)
    (hik : i < k) (hk : k ≤ L.size) (hmember : n.isMember = true)
    (hspan : n.span = ⟨L.start w i, L.behind w k⟩)
    (hnameSpan : n.nameSpan = if name.length == 0 then n.span else name)
    (hname : L.start w i ≤ name.start ∧ name.start < L.behind w k)
    (hrest : ∀ n ∈ rest, L.start w i < n.span.start)
    (hchildren : ∀ c ∈ n.children,
      c ∈ (h w).attributes.map .attribute ∨ (∃ t, c = .type t) ∨ c ∈ rest) : n.Leads :=
  Node.Leads.intro hmember hspan (L.start_lt_behind_of_lt w hik hk) hnameSpan hname
    fun c hc => hh.later hrest (hchildren c hc)

/-- A constructor leads, since its parameters and its body come after its name. -/
theorem leads_constructorDecl (hself : L.Good b self) (hb : b ≤ j + 1) (hij : i ≤ j)
    (hh : L.Opens i h) :
    L.Reads (fun w => constructorDecl self (h w)) j fun a _ => ∀ w, (a w).Leads := by
  simp only [constructorDecl, reads_expectIdent, token_text]
  intro _
  refine (yields_params hself (by omega)).bind fun params qs k hk hparams => ?_
  have hchained : L.Reads (fun _ => optionalPart (accept ":") (chainedCall self)) k fun o l =>
      k ≤ l ∧ ∃ bs, L.Laid k l (fun w => ((o w).map (·.2)).getD []) bs := by
    refine (tests_accept.optionalPart fun _ => reads_chainedCall hself (by omega)).imp ?_
    rintro o l - (⟨rfl, rfl⟩ | ⟨-, rfl, hl, toBase, args, as, hargs, rfl⟩)
    · exact ⟨Nat.le_refl l, [], .nil⟩
    · exact ⟨by omega, as, hargs.mono (by omega) (Nat.le_refl l)⟩
  refine hchained.bind fun chained l hread => ?_
  obtain ⟨hl, bs, hargs⟩ := hread
  refine (yields_body hself (by omega)).bind fun body d m hm hbody => ?_
  have hrest := hparams.andThen (hargs.andThen hbody hl (by omega)) (by omega) (by omega)
  simp only [hh.1, reads_spanFrom]
  refine .pure fun hm' w => hh.leads (by omega) hm' rfl rfl rfl
    (start_within w hij (by omega) hm') (hrest.later (by omega) (by omega) w) fun c hc => ?_
  simp at hc ⊢
  grind

/-- A method leads, since its type or its name comes first. -/
theorem leads_plainMethod (hself : L.Good b self) (hb : b ≤ j + 1) (hij : i < j)
    (hh : L.Opens i h) (returnType : ω → TypeRef) (name : String) (nameSpan : ω → Span)
    (isOperator isDestructor : Bool)
    (hname : ∀ w, L.start w i ≤ (nameSpan w).start ∧ (nameSpan w).start < L.behind w j) :
    L.Reads (fun w => plainMethod self (h w) (returnType w) name (nameSpan w) isOperator
      isDestructor) j fun a _ => ∀ w, (a w).Leads := by
  refine (yields_params hself (by omega)).bind fun params qs k hk hparams => ?_
  refine (yields_body hself (by omega)).bind fun body d l hl hbody => ?_
  have hrest := hparams.andThen hbody (by omega) (by omega)
  simp only [hh.1, reads_spanFrom]
  refine .pure fun hl' w => hh.leads (by omega) hl' rfl rfl rfl
    (within_mono (hname w) (by omega)) (hrest.later (by omega) (by omega) w) fun c hc => ?_
  simp at hc ⊢
  grind

theorem leads_destructorDecl (hself : L.Good b self) (hb : b ≤ j + 1) (hij : i ≤ j)
    (hh : L.Opens i h) :
    L.Reads (fun w => destructorDecl self (h w)) j fun a _ => ∀ w, (a w).Leads := by
  simp only [destructorDecl, reads_discard, reads_expect, reads_expectIdent, token_text]
  intro _ _
  exact .of_le fun hj => leads_plainMethod hself (by omega) (by omega) hh _ _ _ false true
    fun w => start_within w (by omega) (Nat.lt_succ_self (j + 1)) hj

theorem leads_operatorDecl (hself : L.Good b self) (hb : b ≤ j + 1) (hij : i ≤ j)
    (hh : L.Opens i h) (returnType : ω → TypeRef) :
    L.Reads (fun w => operatorDecl self (h w) (returnType w)) j fun a _ => ∀ w, (a w).Leads := by
  simp only [operatorDecl, reads_expect, reads_discard]
  intro _
  refine uniform_accept.bindUniform fun _ k hk => ?_
  refine uniform_overloadedOp.bindUniform fun op l hl => ?_
  rw [reads_spanFrom]
  exact .of_le fun hl' => leads_plainMethod hself (by omega) (by omega) hh _ _ _ true false
    fun w => start_within w hij (by omega) hl'

theorem leads_conversionDecl (hself : L.Good b self) (hb : b ≤ j + 1) (hij : i ≤ j)
    (hh : L.Opens i h) (hj : j < L.size) :
    L.Reads (fun w => conversionDecl self (h w)) j fun a _ => ∀ w, (a w).Leads := by
  simp only [conversionDecl, reads_advance hj, reads_expect, reads_discard, token_text]
  intro _
  refine uniform_accept.bindUniform fun _ k hk => ?_
  refine (yields_type hself (by omega)).bind fun t c l hl ht => ?_
  have htext (w : ω) : (t w).text = c.text := by
    rw [← ht.erase w]
    exact (TypeRef.text_erase _).symm
  simp only [reads_spanFrom, htext]
  exact .of_le fun hl' => leads_plainMethod hself (by omega) (by omega) hh _ _ _ true false
    fun w => start_within w (j := j + 1) (by omega) (by omega) hl'

/-- A method leads also with type parameters and constraints. -/
theorem leads_methodRest (hself : L.Good b self) (hb : b ≤ j) (hij : i < j) (hh : L.Opens i h)
    (returnType : ω → TypeRef) (name : String) (nameSpan : ω → Span) (explicitInterface : String)
    (hname : ∀ w, L.start w i ≤ (nameSpan w).start ∧ (nameSpan w).start < L.behind w j) :
    L.Reads (fun w => methodRest self (h w) (returnType w) name (nameSpan w) explicitInterface) j
      fun a _ => ∀ w, (Node.method (a w)).Leads := by
  refine (allows_optionalTypeParams hself (by omega)).bind fun typeParams ps k hk htypeParams => ?_
  refine (yields_params hself (by omega)).bind fun params qs l hl hparams => ?_
  refine (allows_constraints hself (by omega)).bind fun constraints cs m hm hconstraints => ?_
  refine (yields_body hself (by omega)).bind fun body d n hn hbody => ?_
  have hsignature := htypeParams.andThen (hparams.andThen hconstraints (by omega) hm) hk (by omega)
  have hrest := hsignature.andThen hbody (by omega) (by omega)
  simp only [hh.1, reads_spanFrom]
  refine .pure fun hn' w => hh.leads (by omega) hn' rfl rfl rfl
    (within_mono (hname w) (by omega)) (hrest.later hij (by omega) w) fun c hc => ?_
  simp at hc ⊢
  grind

/-- An indexer leads with its type. -/
theorem leads_indexerDecl (hself : L.Good b self) (hb : b ≤ j + 1) (hij : i ≤ j)
    (hh : L.Opens i h) (t : ω → TypeRef) (explicitName : String) :
    L.Reads (fun w => indexerDecl self (h w) (t w) explicitName) j fun a _ => ∀ w, (a w).Leads := by
  simp only [indexerDecl, reads_expect]
  intro _
  refine (yields_params hself (by omega)).bind fun indexParams qs k hk hparams => ?_
  refine (yields_propertyBody hself (by omega)).bind fun body d l hl hbody => ?_
  have hrest := hparams.andThen hbody (by omega) (by omega)
  simp only [hh.1, reads_spanFrom]
  refine .pure fun hl' w => hh.leads (by omega) hl' rfl rfl rfl
    (start_within w hij (by omega) hl') (hrest.later (by omega) (by omega) w) fun c hc => ?_
  simp at hc ⊢
  grind

/-- A property leads with its type. -/
theorem leads_propertyRest (hself : L.Good b self) (hb : b ≤ j + 1) (hij : i < j)
    (hh : L.Opens i h) (t : ω → TypeRef) (name : String) (nameSpan : ω → Span)
    (hname : ∀ w, L.start w i ≤ (nameSpan w).start ∧ (nameSpan w).start < L.behind w j) :
    L.Reads (fun w => propertyRest self (h w) (t w) name (nameSpan w)) j
      fun a _ => ∀ w, (a w).Leads := by
  refine (yields_propertyBody hself hb).bind fun body d k hk hbody => ?_
  have hnone (w : ω) : (body w).2.isNone = d.2.isNone := by simp [← hbody.snd.erase w]
  simp only [hnone]
  refine (Allows.optionalPart (tests_acceptInit _) (Nat.le_succ k) fun _ =>
    (yields_propertyInit hself (by omega)).allows).bind fun init e l hl hinit => ?_
  have hrest := hbody.andThen hinit (by omega) hl
  simp only [hh.1, reads_spanFrom]
  refine .pure fun hl' w => hh.leads (by omega) hl' rfl rfl rfl
    (within_mono (hname w) (by omega)) (hrest.later hij (by omega) w) fun c hc => ?_
  simp at hc ⊢
  grind

/-- An event leads with its keyword. -/
theorem leads_eventDecl (hself : L.Good b self) (hb : b ≤ j + 1) (hij : i ≤ j)
    (hh : L.Opens i h) : L.Reads (fun w => eventDecl self (h w)) j fun a _ => ∀ w, (a w).Leads := by
  simp only [eventDecl, reads_discard, reads_expect]
  intro _
  refine (yields_type hself (by omega)).bind fun t c k hk ht => ?_
  rw [reads_expectIdent]
  intro _
  refine reads_moreSegments.bindUniform fun segments l hl => ?_
  refine (yields_eventBody hself (by omega)).bind fun accessors cs m hm haccessors => ?_
  simp only [hh.1, reads_spanFrom, token_text]
  refine .pure fun hm' w => hh.leads (by omega) hm' rfl rfl rfl
    (start_within w (j := k) (by omega) (by omega) hm')
    (haccessors.later (by omega) (by omega) w) fun c hc => ?_
  simp at hc ⊢
  grind

end Layouts

/-! ### Members without a body -/

namespace Grammar

/-- A member without a body. -/
def Bodiless (n : Node) : Prop := n.isMember = true ∧ n.bodies = []

variable (self : Rules) (h : Header)

/-- Fields have no bodies. -/
theorem returns_fieldRest (t : TypeRef) (name : String) (nameSpan : Span) :
    Returns (fieldRest self h t name nameSpan) Bodiless :=
  .bind fun _ => .bind fun _ => .bind fun _ => .bind fun _ => .bind fun _ => .pure ⟨rfl, rfl⟩

/-- Delegates have no bodies. -/
theorem returns_delegateDecl : Returns (delegateDecl self h) Bodiless :=
  .bind fun _ => .bind fun _ => .bind fun _ => .bind fun _ => .bind fun _ => .bind fun _ =>
    .bind fun _ => .bind fun _ => .pure ⟨rfl, rfl⟩

/-- A member of an enumeration declares nothing that has a body. -/
theorem returns_enumMember : Returns (enumMember self) fun n => n.bodied = [] :=
  .bind fun _ => .bind fun _ => .bind fun _ => .bind fun _ => .bind fun _ =>
    .pure (Node.bodied_of_not_holds rfl)

end Grammar

namespace Layouts

variable {ω α : Type} {L : Layouts ω} {i j k b : Nat} {self : Rules} {h : ω → Header}

/-- What is known of all values that a parser yields may be added. -/
theorem Reads.returning {P : (ω → α) → Nat → Prop} {Q : α → Prop} {p : ω → Parser α}
    (hp : L.Reads p j P) (hreturns : ∀ w, Returns (p w) Q) :
    L.Reads p j fun a k => P a k ∧ ∀ w, Q (a w) := by
  intro hj
  rcases hp hj with ⟨a, k, hk, ha, hrun⟩ | he
  · exact .inl ⟨a, k, hk, ⟨ha, fun w => hreturns w _ _ _ (hrun w)⟩, hrun⟩
  · exact .inr he

/-! ### Members are placed -/

variable (L) in
/-- Nodes that are read between two indices are placed there. -/
abbrev PlacedAt (w : ω) (j k : Nat) (ns : List Node) : Prop :=
  Node.Placed (L.start w j) (L.behind w k) ns

section Places

variable [Layered α] {p : ω → Parser α}

variable (L) in
/-- From the token at `j` on, a token is consumed and a value is yielded whose nodes are placed from
`i` on. -/
def Places (i : Nat) (p : ω → Parser α) (j : Nat) : Prop :=
  L.Reads p j fun a k => j < k ∧ ∀ w, L.PlacedAt w i k (Layered.nodes (a w))

/-- What is read behind a header consumes a token since the start of the header. -/
theorem Places.since (hp : L.Places i p k) (hjk : j ≤ k) :
    L.Reads p k fun a l => j < l ∧ ∀ w, L.PlacedAt w i l (Layered.nodes (a w)) :=
  Reads.imp hp fun _ _ _ hread => ⟨Nat.lt_of_le_of_lt hjk hread.1, hread.2⟩

end Places

/-- A member that is laid is placed if it leads or has no body. -/
theorem Yields.places [Nonempty ω] {p : ω → Parser Node} (hp : L.Yields i p j)
    (hleads : L.Reads p j fun a _ => ∀ w, (a w).Leads ∨ Bodiless (a w)) : L.Places i p j := by
  refine (Reads.and hp hleads).imp fun a k hk hread => ?_
  obtain ⟨⟨hjk, c, ha⟩, hleads⟩ := hread
  refine ⟨hjk, fun w => ?_⟩
  have hfits := ha.fits w (a w) (List.mem_singleton.mpr rfl)
  have hplaced := Node.Placed.of_leads hfits.nested hfits.start_lt_stop (hleads w)
  exact hplaced.mono hfits.start_le hfits.stop_le

/-- A member with its type in front is a field, or has its name where all members have it. -/
theorem leads_typedMember (hself : L.Good b self) (hb : b ≤ j + 1) (hij : i ≤ j)
    (hh : L.Heads i j h) (hopens : L.Opens i h) :
    L.Reads (fun w => typedMember self (h w)) j fun a _ => ∀ w, (a w).Leads ∨ Bodiless (a w) := by
  -- All but fields lead, and so satisfy the weaker alternative.
  have hleft {p : ω → Parser Node} {k : Nat} (hp : L.Reads p k fun a _ => ∀ w, (a w).Leads) :
      L.Reads p k fun a _ => ∀ w, (a w).Leads ∨ Bodiless (a w) :=
    hp.imp fun _ _ _ ha w => .inl (ha w)
  -- The name was read behind the header, and takes up a token at least.
  have hname {k l : Nat} (hk : j < k) (hkl : k < l) (hl : l ≤ L.size) (w : ω) :
      L.start w i ≤ L.start w k ∧ L.start w k < L.behind w l :=
    start_within w (by omega) hkl hl
  refine Reads.typedMember (T := fun t k => j < k ∧ ∃ c, L.Laid j k t c) (M := fun k _ _ l => k < l)
    (yields_type hself hb)
    (fun ⟨hk, _⟩ => (uniform_memberNameWithInterface hself (by omega)).imp ?_)
    (fun ⟨hk, _⟩ => hleft (leads_operatorDecl hself (by omega) (by omega) hopens _))
    (fun ⟨hk, _⟩ => hleft (leads_indexerDecl hself (by omega) (by omega) hopens _ ""))
    (fun ⟨hk, _⟩ hl => hleft (leads_indexerDecl hself (by omega) (by omega) hopens _ _))
    (fun {t k name interface l} ⟨hk, _⟩ hl _ => .of_le fun hle => (leads_methodRest hself (by omega)
      (by omega) hopens t name (fun w => ⟨L.start w k, L.behind w l⟩) interface
      (hname hk hl hle)).imp fun _ _ _ hd w => .inl (hd w))
    (fun {t k name interface l} ⟨hk, _⟩ hl _ => .of_le fun hle => hleft (leads_propertyRest hself
      (by omega) (by omega) hopens t name (fun w => ⟨L.start w k, L.behind w l⟩) (hname hk hl hle)))
    (fun {t k name interface l} ⟨hk, c, ht⟩ hl => (Reads.returning (yields_fieldRest hself
      (by omega) (Nat.le_trans hij (Nat.le_of_lt hk)) hl (hh.mono (by omega))
      (ht.mono hij (Nat.le_of_lt hl)) name (fun w => ⟨L.start w k, L.behind w l⟩) fun _ => rfl)
      fun w => returns_fieldRest self (h w) _ _ _).imp fun _ _ _ ha w => .inr (ha.2 w))
  rintro - l - ⟨hl, ⟨name, interface⟩, rfl⟩
  exact ⟨name, interface, rfl, hl⟩

/-! ### Lists -/

/-- What stands one behind the other is placed if both parts are. -/
theorem PlacedAt.append {w : ω} {l : Nat} {ns ms : List Node} (hns : L.PlacedAt w j k ns)
    (hms : L.PlacedAt w k l ms) (hjk : j ≤ k) (hkl : k ≤ l) : L.PlacedAt w j l (ns ++ ms) :=
  Node.Placed.append hns hms (L.start_mono w hjk) (L.behind_le_start w k) (L.behind_mono w hkl)

/-- Nodes that fit between two indices are placed there if nothing with a body is declared in
them. -/
theorem PlacedAt.of_fits {w : ω} {ns : List Node} (hfits : ∀ n ∈ ns, L.Fits w j k n)
    (hbodied : ns.flatMap Node.bodied = []) : L.PlacedAt w j k ns :=
  .of_nested (fun n hn =>
    ⟨(hfits n hn).nested, (hfits n hn).start_lt_stop, (hfits n hn).start_le,
      (hfits n hn).stop_le⟩) hbodied

theorem Places.repeatFuel [Layered α] {test : Parser Bool} {item : ω → Parser α}
    {holds : Nat → Prop} {fuel : Nat} (hfuel : L.size - j < fuel)
    (htest : ∀ k, j ≤ k → L.Tests test k k (holds k))
    (hitem : ∀ k, j ≤ k → holds k → L.Places k item k) :
    L.Reads (fun w => Grammar.repeatFuel test (item w) fuel) j fun as k =>
      j ≤ k ∧ ∀ w, L.PlacedAt w j k (Layered.nodes (as w)) := by
  induction fuel generalizing j with
  | zero => omega
  | succ fuel ih =>
    simp only [repeatFuel_succ, reads_tokensLeft]
    refine ((htest j (Nat.le_refl j)).optionalPart (hitem j (Nat.le_refl j))).bindPerhaps
      (fun k hk => ?_) fun a k hread => ?_
    · exact .pure fun _ => ⟨Nat.le_of_eq hk.symm, fun w => Node.Placed.nil⟩
    · obtain ⟨hjk, ha⟩ := hread
      refine reads_nextRound_bind hjk (.of_le fun hk => ?_)
      refine (ih (by omega) (fun l hl => htest l (by omega))
        fun l hl => hitem l (by omega)).bind fun as l hread => ?_
      obtain ⟨hkl, has⟩ := hread
      refine .pure fun _ => ⟨by omega, fun w => ?_⟩
      exact PlacedAt.append (ha w) (has w) (Nat.le_of_lt hjk) hkl

/-- What a loop reads is placed if each of its rounds reads something that is. -/
theorem Places.repeatWhile [Layered α] {test : Parser Bool} {item : ω → Parser α}
    {holds : Nat → Prop} (htest : ∀ k, j ≤ k → L.Tests test k k (holds k))
    (hitem : ∀ k, j ≤ k → holds k → L.Places k item k) :
    L.Reads (fun w => Grammar.repeatWhile test (item w)) j fun as k =>
      j ≤ k ∧ ∀ w, L.PlacedAt w j k (Layered.nodes (as w)) := by
  simp only [Grammar.repeatWhile, reads_bound]
  exact Places.repeatFuel (by omega) htest hitem

/-! ### Types -/

section Types

variable (hmember : ∀ {j}, b ≤ j → L.Places j (fun _ => self.member) j)

include hmember in
/-- The members of a type are placed, since each is read behind the one before it. -/
theorem placed_typeBody (hb : b ≤ j + 1) (kind : TypeKind) (name : String) :
    L.Reads (fun _ => typeBody self kind name) j fun members k =>
      j < k ∧ ∀ w, L.PlacedAt w j k (members w) := by
  refine Reads.typeBody <| (Places.repeatWhile (fun _ _ => tests_isNot) fun k hk _ =>
    Reads.unlessEnd rfl fun _ => hmember (by omega)).imp ?_
  rintro members k - ⟨hk, hmembers⟩ l hl
  refine ⟨by omega, fun w => ?_⟩
  have hplaced := (hmembers w).mono (L.start_mono w (Nat.le_succ j))
    (L.behind_mono w (Nat.le_of_lt hl))
  simpa using hplaced

/-- The members of an enumeration declare nothing with a body. -/
theorem placed_enumMembers (hself : L.Good b self) (hb : b ≤ j + 1) :
    L.Reads (fun _ => enclosed openBrace closeBrace (enumMember self)) j fun members k =>
      j < k ∧ ∀ w, L.PlacedAt w j k (members w) := by
  refine (Reads.enclosed (I := fun j a k => (∃ c, L.Laid j k a c) ∧
    ∀ w, (a w).bodied = []) fun k hk => ?_).imp ?_
  · refine (Reads.returning (yields_enumMember hself (by omega)) fun _ =>
      returns_enumMember self).imp fun a l _ hread => ?_
    exact ⟨hread.1.1, hread.1.2, hread.2⟩
  · rintro members k - ⟨hk, xs, rfl, hxs⟩
    refine ⟨hk, fun w => .of_fits (fun n hn => ?_) (List.flatMap_eq_nil_iff.mpr fun n hn => ?_)⟩
    · obtain ⟨x, hx, rfl⟩ := List.mem_map.mp hn
      obtain ⟨l, m, hl, hm, ⟨c, hc⟩, -⟩ := hxs x hx
      exact (hc.fits w _ (List.mem_singleton.mpr rfl)).mono hl hm
    · obtain ⟨x, hx, rfl⟩ := List.mem_map.mp hn
      obtain ⟨-, -, -, -, -, hbodied⟩ := hxs x hx
      exact hbodied w

include hmember in
theorem placed_typeContents (hself : L.Good b self) (hb : b ≤ j + 1) (kind : TypeKind)
    (name : String) :
    L.Reads (fun _ => typeContents self kind name) j fun contents k =>
      j < k ∧ ∀ w, L.PlacedAt w j k ((contents w).2 ++ (contents w).1) := by
  refine Reads.typeContents ((placed_enumMembers hself hb).imp ?_)
    ⟨Nat.lt_succ_self j, fun w => .nil⟩ (placed_typeBody hmember hb kind name)
  rintro members k - ⟨hk, hmembers⟩ l hl
  refine ⟨by omega, fun w => ?_⟩
  simpa using (hmembers w).mono (Nat.le_refl _) (L.behind_mono w hl)

include hmember in
/-- A type is placed with its members. -/
theorem places_typeDecl (hself : L.Good b self) (hb : b ≤ j + 1) (hij : i ≤ j)
    (hh : L.Heads i j h) (hj : j < L.size) : L.Places i (fun w => typeDecl self (h w)) j := by
  obtain ⟨⟨g, hh⟩, hstart⟩ := hh
  refine (reads_typeKind hj).bindUniform fun kind k hk => ?_
  rw [reads_expectIdent]
  intro _
  refine (allows_optionalTypeParams hself (by omega)).bind fun typeParams ps l hl htypeParams => ?_
  refine (Allows.optionalList tests_is (Nat.le_refl l) fun _ =>
    (yields_params hself (by omega)).allows).bind fun primaryParams qs m hm hprimaryParams => ?_
  refine (Allows.optionalList tests_accept (Nat.le_succ m) fun _ => (Yields.separated fun n hn =>
    yields_baseType hself (by omega)).allows).bind fun baseTypes ts n hn hbaseTypes => ?_
  refine (allows_constraints hself (by omega)).bind fun constraints cs o ho hconstraints => ?_
  simp only [token_text]
  refine (placed_typeContents hmember hself (by omega) kind _).bind fun contents p hread => ?_
  obtain ⟨hp, hcontents⟩ := hread
  simp only [hstart, reads_spanFrom]
  have hsignature := htypeParams.andThen (hprimaryParams.andThen (hbaseTypes.andThen hconstraints
    hn ho) hm (by omega)) hl (by omega)
  have hfront := hh.andThen hsignature (by omega) (by omega)
  refine .pure fun _ => ⟨by omega, fun w => .of_holds rfl ?_⟩
  -- what stands in front of the members declares nothing
  have hsides : L.PlacedAt w i o (Layered.nodes (h w, typeParams w, primaryParams w, baseTypes w,
      constraints w)) := by
    refine .of_fits (hfront.fits w) (Node.flatMap_bodied_eq_nil fun c hc => ?_)
    simp at hc
    rcases hc with ⟨_, -, rfl⟩ | ⟨_, -, rfl⟩ | ⟨_, -, rfl⟩ | ⟨_, -, rfl⟩ | ⟨_, -, rfl⟩
    all_goals exact ⟨rfl, rfl⟩
  have hall := hsides.append (hcontents w) (by omega) (by omega)
  simpa using hall

/-- A header opens the declaration behind it. -/
theorem reads_opening (hself : L.Good b self) (hb : b ≤ j + 1) [Nonempty ω] :
    L.Reads (fun _ => header self) j fun h k => j ≤ k ∧ L.Heads j k h ∧ L.Opens j h := by
  refine (Reads.and (reads_header hself hb) (reads_header_behind hself hb)).imp ?_
  rintro h k - ⟨⟨hk, hh⟩, hbehind⟩
  exact ⟨hk, hh, hh.2, hbehind⟩

theorem places_delegateDecl (hself : L.Good b self) (hb : b ≤ j + 1) (hij : i ≤ j)
    (hh : L.Heads i j h) [Nonempty ω] : L.Places i (fun w => delegateDecl self (h w)) j := by
  have hdelegate := yields_delegateDecl hself hb hij hh
  refine hdelegate.places ?_
  refine (Reads.returning hdelegate fun w => returns_delegateDecl self (h w)).imp ?_
  exact fun _ _ _ ha w => .inr (ha.2 w)

include hmember in
/-- Members are placed. -/
theorem places_member (hself : L.Good b self) (hb : b ≤ j + 1) [Nonempty ω] :
    L.Places j (fun _ => member self) j := by
  have hleads {p : ω → Parser Node} {k : Nat} (hk : j ≤ k) (hp : L.Yields j p k)
      (hp' : L.Reads p k fun a _ => ∀ w, (a w).Leads) :
      L.Reads p k fun a l => j < l ∧ ∀ w, L.PlacedAt w j l (Layered.nodes (a w)) :=
    (hp.places (hp'.imp fun _ _ _ ha w => .inl (ha w))).since hk
  exact .member (reads_opening hself hb)
    (fun ⟨hk, hh, _⟩ => (places_delegateDecl hself (by omega) hk hh).since hk)
    (fun ⟨hk, hh, _⟩ hj => (places_typeDecl hmember hself (by omega) hk hh hj).since hk)
    (fun ⟨hk, hh, hopens⟩ => hleads hk (yields_destructorDecl hself (by omega) hk hh)
      (leads_destructorDecl hself (by omega) hk hopens))
    (fun ⟨hk, hh, hopens⟩ => hleads hk (yields_eventDecl hself (by omega) hk hh)
      (leads_eventDecl hself (by omega) hk hopens))
    (fun ⟨hk, hh, hopens⟩ hj => hleads hk (yields_conversionDecl hself (by omega) hk hh hj)
      (leads_conversionDecl hself (by omega) hk hopens hj))
    (fun ⟨hk, hh, hopens⟩ => hleads hk (yields_constructorDecl hself (by omega) hk hh)
      (leads_constructorDecl hself (by omega) hk hopens))
    (fun ⟨hk, hh, hopens⟩ => ((yields_typedMember hself (by omega) hk hh).places
      (leads_typedMember hself (by omega) hk hh hopens)).since hk)

include hmember in
theorem places_typeLevelDecl (hself : L.Good b self) (hb : b ≤ j + 1) [Nonempty ω] :
    L.Places j (fun _ => typeLevelDecl self) j :=
  .typeLevelDecl hself hb (places_member hmember hself hb)

end Types

/-! ### Namespaces -/

section Namespaces

variable (hmember : ∀ {j}, b ≤ j → L.Places j (fun _ => self.member) j)
  (hnamespace : ∀ {j}, b ≤ j → L.Places j (fun _ => self.namespaceDecl) j)

theorem places_usingDirective (hself : L.Good b self) (hb : b ≤ j + 1) :
    L.Places j (fun _ => usingDirective self) j := by
  refine (yields_usingDirective hself hb).imp fun d k _ hread => ?_
  obtain ⟨hk, e, hd⟩ := hread
  refine ⟨hk, fun w => .of_fits (hd.fits w) (Node.flatMap_bodied_eq_nil fun c hc => ?_)⟩
  rw [List.mem_singleton.mp hc]
  exact ⟨rfl, rfl⟩

include hmember hnamespace in
theorem places_namespaceEntry (hself : L.Good b self) (hb : b ≤ j) (name : String) [Nonempty ω] :
    L.Places j (fun _ => namespaceEntry self name) j := by
  refine Reads.namespaceEntry (places_usingDirective hself (by omega))
    ((Reads.and (hself.namespaceDecl hb) (hnamespace hb)).imp ?_)
    (places_typeLevelDecl hmember hself (by omega))
  rintro d k - ⟨⟨-, e, hd⟩, hplaced⟩
  exact ⟨⟨_, hd.fileScoped_eq⟩, hplaced⟩

/-- The entries of a namespace are its children, in another order. -/
theorem flatMap_contents_perm {β : Type} (f : Node → List β) (es : List Grammar.Entry) :
    (((Contents.ofEntries es).usings.map Node.usingDirective ++
      (Contents.ofEntries es).members).flatMap f).Perm ((Layered.nodes es).flatMap f) := by
  induction es with
  | nil => exact .refl _
  | cons e es ih =>
    simp only [Contents.ofEntries, Layered.nodes, List.flatMap_cons, List.flatMap_append] at ih ⊢
    cases e with
    | directive d => simpa using ih.append_left (f (.usingDirective d))
    | member n =>
      simp only [List.filterMap_cons, List.flatMap_cons]
      refine (List.perm_append_comm_assoc _ _ _).trans ?_
      simpa using ih.append_left (f n)

/-- A namespace lists its entries, though not in the order in which they were read. -/
theorem HoldsEntries.flatMap_children_perm {β : Type} {d : NamespaceDecl Node}
    {es : List Grammar.Entry} (h : HoldsEntries d es) (f : Node → List β) :
    ((Node.namespaceDecl d).children.flatMap f).Perm ((Layered.nodes es).flatMap f) := by
  rw [Node.children, h.usings_eq, h.members_eq]
  exact flatMap_contents_perm f es

include hmember hnamespace in
/-- Namespaces are placed. -/
theorem places_namespaceDecl (hself : L.Good b self) (hb : b ≤ j + 1) [Nonempty ω] :
    L.Places j (fun _ => namespaceDecl self) j := by
  refine (Reads.namespaceDecl (N := fun _ => True)
    (E := fun k l es => ∀ w, L.PlacedAt w k l (Layered.nodes (es w)))
    (reads_qualifiedName.imp fun _ _ _ _ => trivial) (fun k w => .nil)
    fun name hk => Places.repeatWhile (fun _ _ => tests_isNot) fun l hl _ =>
      Reads.unlessEnd (by simp) fun _ =>
        places_namespaceEntry hmember hnamespace hself (by omega) name).imp ?_
  rintro d m - ⟨-, k, l, es, hjk, hkl, hlm, hes, hholds⟩
  refine ⟨by omega, fun w => .of_holds rfl ?_⟩
  have hplaced := (hes w).mono (L.start_mono w (Nat.le_of_lt hjk)) (L.behind_mono w hlm)
  exact hplaced.of_subperm ((hholds w).flatMap_children_perm _).subperm
    ((hholds w).flatMap_children_perm _).subperm

end Namespaces

/-! ### Files -/

section Growth

variable {u v : ω → CompilationUnit Node}

variable (L) in
/-- A file whose entries are placed before the token at `k`. -/
def UnitPlaced (u : ω → CompilationUnit Node) (k : Nat) : Prop :=
  ∀ w, Node.Placed 0 (L.behind w k) (Node.unit (u w)).children

/-- What is listed of a namespace is listed of its children. -/
def ListsChildren {β : Type} (f : Node → List β) : Prop :=
  ∀ d, f (.namespaceDecl d) = (Node.namespaceDecl d).children.flatMap f

/-- A file lists no more than another file and some nodes together. -/
def WithinUnit (v u : CompilationUnit Node) (ns : List Node) : Prop :=
  ∀ {β : Type} (f : Node → List β), ListsChildren f →
    ((Node.unit v).children.flatMap f).Subperm (((Node.unit u).children ++ ns).flatMap f)

/-- A file stays placed when it grows by what is read behind its entries. -/
theorem UnitPlaced.grow (hu : L.UnitPlaced u j) (ns : ω → List Node)
    (hns : ∀ w, L.PlacedAt w j k (ns w)) (hjk : j ≤ k)
    (hgrow : ∀ w, WithinUnit (v w) (u w) (ns w)) : L.UnitPlaced v k := by
  intro w
  have hall : Node.Placed 0 (L.behind w k) ((Node.unit (u w)).children ++ ns w) :=
    (hu w).append (hns w) (Nat.zero_le _) (L.behind_le_start w j) (L.behind_mono w hjk)
  refine hall.of_subperm (hgrow w _ fun d => ?_) (hgrow w _ fun d => ?_)
  · exact Node.memberStarts_of_not_isMember rfl
  · exact Node.bodied_of_holds rfl

variable {u v : CompilationUnit Node}

theorem within_usings (d : UsingDirective) :
    WithinUnit { u with usings := u.usings ++ [d] } u [.usingDirective d] := by
  classical
  intro β f _
  refine List.subperm_iff_count.mpr fun x => ?_
  simp
  omega

theorem within_attributes (as : List (Attribute Node)) :
    WithinUnit { u with attributes := u.attributes ++ as } u (as.map .attribute) := by
  classical
  intro β f _
  refine List.subperm_iff_count.mpr fun x => ?_
  simp
  omega

theorem within_members (ns : NamespaceDecl Node) :
    WithinUnit { u with members := u.members ++ [.namespaceDecl ns] } u [.namespaceDecl ns] := by
  intro β f _
  simp only [Node.children, List.append_assoc]
  exact (List.Perm.refl _).subperm

theorem within_fileScoped (ns : NamespaceDecl Node) :
    WithinUnit { u with fileScopedNamespace := some ns } u [.namespaceDecl ns] := by
  classical
  intro β f _
  refine List.subperm_iff_count.mpr fun x => ?_
  simp
  omega

/-- A declaration that is added is the only new entry of a file. -/
theorem within_addMember (decl : Node) : WithinUnit (addMember u decl) u [decl] := by
  classical
  intro β f hf
  refine List.subperm_iff_count.mpr fun x => ?_
  obtain ⟨span, usings, fileScopedNamespace, members, as, nullable⟩ := u
  cases fileScopedNamespace with
  | none => simp [addMember]
  | some ns =>
    -- the member joins those of the namespace, which is listed through its children
    simp [addMember, gather, hf _]
    omega

end Growth

section Files

variable (hmember : ∀ {j}, b ≤ j → L.Places j (fun _ => self.member) j)
  (hnamespace : ∀ {j}, b ≤ j → L.Places j (fun _ => self.namespaceDecl) j)
  {u : ω → CompilationUnit Node}

include hmember hnamespace in
/-- One more entry keeps a file placed. -/
theorem placed_unitStep (hself : L.Good b self) (hb : b ≤ j + 1) (hlaid : L.UnitLaid u j)
    (hu : L.UnitPlaced u j) [Nonempty ω] :
    L.Reads (fun w => unitStep self (u w)) j (Perhaps (fun v k => L.UnitPlaced v k) (· = j)) := by
  -- What is read in front of a namespace changes nothing but the tokens that are behind it.
  refine .unitStep hlaid (fun k hk w => (hu w).mono (Nat.le_refl 0) (L.behind_mono w (by omega)))
    ((places_usingDirective hself hb).imp ?_)
    (fun hbracket => (yields_attributes hself hb hbracket).imp ?_)
    ((Reads.and (yields_namespaceDecl hself hb)
      (places_namespaceDecl hmember hnamespace hself hb)).imp ?_)
    ((places_typeLevelDecl hmember hself hb).imp ?_)
  · rintro d k - ⟨hk, hd⟩
    exact hu.grow _ hd (Nat.le_of_lt hk) fun w => within_usings (d w)
  · -- local functions may be declared in arguments, but these are below no declaration
    rintro as k - ⟨hk, cs, has⟩
    refine hu.grow (fun w => (as w).map .attribute) (fun w => ?_) (Nat.le_of_lt hk)
      fun w => within_attributes (as w)
    refine .of_fits (by simpa using has.fits w) (Node.flatMap_bodied_eq_nil fun n hn => ?_)
    obtain ⟨a, -, rfl⟩ := List.mem_map.mp hn
    exact ⟨rfl, rfl⟩
  · rintro d k - ⟨⟨-, e, hd⟩, hk, hplaced⟩
    exact ⟨_, hd.fileScoped_eq,
      fun _ _ => hu.grow _ hplaced (Nat.le_of_lt hk) fun w => within_fileScoped (d w),
      hu.grow _ hplaced (Nat.le_of_lt hk) fun w => within_members (d w)⟩
  · rintro d k - ⟨hk, hd⟩
    exact hu.grow _ hd (Nat.le_of_lt hk) fun w => within_addMember (d w)

include hmember hnamespace in
/-- A file is placed if members and namespaces are. -/
theorem placed_unit (hself : L.Good b self) (hb : b ≤ 1) [Nonempty ω] :
    L.Reads (fun _ => unit self) 0 L.UnitPlaced :=
  .unit hself hb (fun _ => .nil) fun hlaid hu =>
    placed_unitStep hmember hnamespace hself (by omega) hlaid hu

end Files

/-! ### Nesting to any depth -/

/-- Productions that may be nested more often than tokens are left place members and namespaces. -/
theorem places_rules {depth : Nat} (h : L.size < depth + b) [Nonempty ω] :
    (∀ {j}, b ≤ j → L.Places j (fun _ => (rules depth).member) j) ∧
      ∀ {j}, b ≤ j → L.Places j (fun _ => (rules depth).namespaceDecl) j :=
  nested_rules (M := fun p j => L.Places j (fun _ => p) j) (N := fun p j => L.Places j (fun _ => p) j)
    (fun hj => ⟨fun _ hle => absurd hle (by omega), fun _ hle => absurd hle (by omega)⟩)
    (fun hgood hmember hnamespace _ hj => ⟨places_member hmember hgood (Nat.succ_le_succ hj),
      places_namespaceDecl hmember hnamespace hgood (Nat.succ_le_succ hj)⟩) h

end Layouts

end CSharpAudit
