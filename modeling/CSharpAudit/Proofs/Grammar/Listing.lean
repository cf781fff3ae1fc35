import CSharpAudit.Proofs.Grammar.Inner
import CSharpAudit.Proofs.Grammar.ReadType
import CSharpAudit.Proofs.MetricCounts

/-!
# What the grammar lists as declarations

The members of a type are declarations and those of an enumeration are its members, and nothing else
is listed. The parameters of methods and constructors have types that were written in the file. The
names of types, delegates and namespaces are made of identifiers; a member is called by an
identifier, or by a name that is made up from a few tokens. All this is found out where a
declaration is read, and holds of every declaration of a file, since declarations are read one
inside the other.

## Main definitions

* `IdentFrom`, `DottedFrom` — an identifier of a file, or several with points between them
* `MemberName` — what a member may be called
* `Node.Everywhere` — what holds of all that is reached through files, namespaces and types
* `Node.ReadFrom` — what is known of a declaration that was read from some tokens
* `Layouts.Lists` — a production reads declarations of which this is known

## Main results

* `Layouts.lists_member`, `Layouts.lists_namespaceDecl` — one level of nesting
* `readFrom_of_parse` — what is known of the declarations of a parsed file
-/

namespace CSharpAudit

open Grammar

attribute [local simp] Layered.erase

/-! ### Everywhere -/

namespace Node

variable {P : Node → Prop} {n c : Node}

/-- A property holds of all nodes that are reached through files, namespaces and types. -/
def Everywhere (P : Node → Prop) (n : Node) : Prop := ∀ m ∈ n.reached holdsDeclarations, P m

/-- Below a node that holds no declarations nothing is reached. -/
theorem everywhere_iff_of_not_holds (hn : n.holdsDeclarations = false) :
    n.Everywhere P ↔ P n := by
  rw [Everywhere, reached_eq, hn]
  exact List.forall_mem_singleton

/-- What holds of a node and of all below it. -/
theorem everywhere_iff_of_holds (hn : n.holdsDeclarations = true) :
    n.Everywhere P ↔ P n ∧ ∀ c ∈ n.children, c.Everywhere P := by
  simp only [Everywhere]
  rw [reached_eq, hn, if_pos rfl, List.forall_mem_cons, List.forall_mem_flatMap]

/-- Whether a node is a member of an enumeration. -/
def isEnumMember : Node → Bool
  | enumMember _ _ _ _ => true
  | _ => false

theorem declares_of_isEnumMember (hn : n.isEnumMember = true) : n.declares = false := by
  cases n <;> first | rfl | cases hn

/-- Directly below a type there are its members behind other nodes that declare nothing. -/
theorem exists_children_typeDecl (t : TypeDecl Node) : ∃ front,
    (typeDecl t).children = front ++ t.enumMembers ++ t.members ∧
      ∀ c ∈ front, c.declares = false := by
  refine ⟨_, rfl, fun c hc => ?_⟩
  simp only [List.mem_append, List.mem_map, or_assoc] at hc
  rcases hc with ⟨_, -, rfl⟩ | ⟨_, -, rfl⟩ | ⟨_, -, rfl⟩ | ⟨_, -, rfl⟩ | ⟨_, -, rfl⟩
  all_goals rfl

end Node

/-- A parameter whose type was written by some of the given tokens. -/
structure Param.ReadFrom (tokens : List Token) (p : Param Node) : Prop where
  modifier : p.modifier ∈ "" :: "scoped" :: paramModifiers
  type : ∃ t ts, p.type = some t ∧ ts <:+: tokens ∧ WritesType ts t.erase

/-- A text that is an identifier among the given tokens. -/
def IdentFrom (tokens : List Token) (text : String) : Prop :=
  ∃ i ∈ tokens, i.isIdent = true ∧ text = i.text

/-- A text that is made of identifiers among the given tokens, with points between them. -/
def DottedFrom (tokens : List Token) (text : String) : Prop :=
  ∃ first more, (∀ s ∈ first :: more, IdentFrom tokens s) ∧ text = ".".intercalate (first :: more)

/-- A text that begins with an identifier among the given tokens. -/
def BeginsWithIdent (tokens : List Token) (text : String) : Prop :=
  ∃ i ∈ tokens, i.isIdent = true ∧ ∃ more, text = i.text ++ more

/-- A method whose name is an identifier if an interface stands before it, which begins with one
too. -/
def Method.NameReadFrom (tokens : List Token) (m : Method Node) : Prop :=
  m.explicitInterface = "" ∨
    BeginsWithIdent tokens m.explicitInterface ∧ ∃ i ∈ tokens, i.isIdent = true ∧ m.name = i.text

/-- What a member may be called: an identifier, or a name that is made up for a destructor, an
operator, a conversion or an indexer. -/
inductive MemberName (tokens : List Token) : String → Prop
  | ident {name} (h : IdentFrom tokens name) : MemberName tokens name
  | destructor {name} (h : IdentFrom tokens name) : MemberName tokens ("~" ++ name)
  | operator {op} (h : op ∈ ">>>" :: ">>" :: ">" :: overloadableOps) :
      MemberName tokens ("operator" ++ op)
  | conversion (kind) {ts} {t : TypeRef} (hts : ts <:+: tokens) (h : WritesType ts t.erase) :
      MemberName tokens (kind ++ " operator " ++ t.text)
  | indexer (interface) : MemberName tokens (interface ++ "this")

/-- What is known of a declaration that was read from some of the given tokens. -/
def Node.ReadFrom (tokens : List Token) : Node → Prop
  | namespaceDecl d => DottedFrom tokens d.name
  | typeDecl t => (∀ m ∈ t.members, m.isDeclaration = true) ∧
    (∀ m ∈ t.enumMembers, m.isEnumMember = true) ∧ IdentFrom tokens t.name
  | delegate d => IdentFrom tokens d.name
  | constructor d => (∀ p ∈ d.params, p.ReadFrom tokens) ∧ MemberName tokens d.name
  | method m => (∀ p ∈ m.params, p.ReadFrom tokens) ∧ m.NameReadFrom tokens ∧
    MemberName tokens m.name
  | property d => MemberName tokens d.name
  | event d => MemberName tokens d.name
  | _ => True

/-! ### Names of members -/

namespace Grammar

variable {self : Rules} {x : Input} {c c' : Cursor} {name text : String}

/-- A look ahead stays where it is, and yields what a reading would. -/
theorem run_lookahead_eq_ok {α : Type} {p : Parser α} {o : Option α}
    (h : lookahead p x c = .ok (o, c')) :
    c' = c ∧ ∀ a, o = some a → ∃ c₁, p x c = .ok (a, c₁) := by
  rw [lookahead] at h
  split at h
  · next a c₁ hrun =>
    cases h
    exact ⟨rfl, fun b hb => ⟨c₁, Option.some.inj hb ▸ hrun⟩⟩
  · split at h
    · cases h
    · cases h
      exact ⟨rfl, fun a ha => by cases ha⟩

/-- What stands before a point is read again as it was read in advance. -/
theorem run_atInterfaceArgs_eq_ok {b : Bool} (h : atInterfaceArgs self x c = .ok (b, c')) :
    c' = c ∧ (b = true → ∃ args c₁, typeArgs self x c = .ok (args, c₁) ∧
      (ahead x c₁.rest 0).is "." = true) := by
  rw [atInterfaceArgs, run_is_bind, run_bind_eq_ok] at h
  obtain ⟨o, c₁, hlook, h⟩ := h
  obtain ⟨rfl, rfl⟩ := Prod.mk.inj (Except.ok.inj h)
  obtain ⟨rfl, hrun⟩ := run_lookahead_eq_ok hlook
  refine ⟨rfl, fun hand => ?_⟩
  obtain ⟨-, hpoint⟩ := Bool.and_eq_true_iff.mp hand
  cases o with
  | none => cases hpoint
  | some a =>
    obtain ⟨c₂, hrun⟩ := hrun a rfl
    rw [run_discard_bind, run_bind_eq_ok] at hrun
    obtain ⟨args, c₃, hargs, his⟩ := hrun
    cases his
    exact ⟨args, _, hargs, hpoint⟩

section

variable (heof : x.eof.kind = .eof)
  (hself : ∀ c, Uses x self.type c fun ts t => WritesType ts t.erase)
include heof hself

/-- Type arguments are added to a name only if a point stands behind them. -/
theorem run_withInterfaceArgs_eq_ok (h : withInterfaceArgs self name x c = .ok (text, c')) :
    (∃ ts, c.rest = ts ++ c'.rest) ∧
      ∃ more, text = name ++ more ∧ (more = "" ∨ (ahead x c'.rest 0).is "." = true) := by
  rw [withInterfaceArgs, run_bind_eq_ok] at h
  obtain ⟨b, c₁, hat, h⟩ := h
  obtain ⟨rfl, hargs⟩ := run_atInterfaceArgs_eq_ok hat
  cases b with
  | true =>
    obtain ⟨args, c₂, hargs, hpoint⟩ := hargs rfl
    rw [run_ite, if_pos rfl, run_bind_of_ok hargs] at h
    cases h
    obtain ⟨ts, hts, -⟩ := uses_typeArgs heof hself [] _ _ hargs
    exact ⟨⟨ts, hts⟩, _, rfl, .inr hpoint⟩
  | false =>
    cases h
    exact ⟨⟨[], rfl⟩, "", by simp, .inl rfl⟩

/-- A name of a member begins with an identifier and is no more than one unless a point follows.
What stands before it begins with an identifier as well. -/
theorem run_memberNameWithInterface_eq_ok {interface : String}
    (h : memberNameWithInterface self x c = .ok ((name, interface), c')) :
    (interface = "" ∨ BeginsWithIdent c.rest interface) ∧
      ∃ i ∈ c.rest, i.isIdent = true ∧
        ∃ more, name = i.text ++ more ∧ (more = "" ∨ (ahead x c'.rest 0).is "." = true) := by
  rw [memberNameWithInterface, run_bind_eq_ok] at h
  obtain ⟨first, c₁, hfirst, h⟩ := h
  obtain ⟨i, hrest, hi, rfl⟩ := run_identText_eq_ok heof hfirst
  rw [run_bind_eq_ok] at h
  obtain ⟨text, c₂, htext, h⟩ := h
  obtain ⟨⟨ts, hts⟩, more, rfl, hmore⟩ := run_withInterfaceArgs_eq_ok heof hself htext
  -- What has been read so far: the interface in front, and the name behind the last point.
  have hall := run_extend_rec h (P := fun a c' => (∃ ts, c.rest = ts ++ c'.rest) ∧
    (a.2 = "" ∨ BeginsWithIdent c.rest a.2) ∧
      ∃ i ∈ c.rest, i.isIdent = true ∧
        ∃ more, a.1 = i.text ++ more ∧ (more = "" ∨ (ahead x c'.rest 0).is "." = true))
    ⟨⟨i :: ts, by rw [hrest, hts]; rfl⟩, .inl rfl, i, by simp [hrest], hi, more, rfl, hmore⟩ ?_ ?_
  · exact hall.2
  · rintro ⟨name, interface⟩ ⟨rest, k⟩ ⟨name', interface'⟩ c₃ ⟨⟨us, hus⟩, hinterface, hname⟩ hstep
    dsimp only at hstep
    rw [run_is_bind, run_peekIdent_bind, run_ite] at hstep
    split at hstep
    · -- behind a point the name starts anew, and what was read so far belongs to the interface
      obtain ⟨point, i', vs, rfl, hpoint, hi'⟩ := ahead_of_point heof ‹_›
      rw [run_discard_bind, run_advance_bind, run_advance_bind, run_bind_eq_ok] at hstep
      obtain ⟨text, c₄, htext, hstep⟩ := hstep
      cases hstep
      obtain ⟨⟨vs', hvs⟩, more', rfl, hmore'⟩ := run_withInterfaceArgs_eq_ok heof hself htext
      obtain rfl : vs = vs' ++ c₃.rest := hvs
      refine ⟨⟨us ++ point :: i' :: vs', by simp [hus]⟩, .inr ?_, i', by simp [hus], hi', more', rfl,
        hmore'⟩
      dsimp only
      split
      · obtain ⟨i, hmem, hi, more, hname, -⟩ := hname
        exact ⟨i, hmem, hi, more, hname⟩
      · next hne =>
        obtain rfl | ⟨i, hmem, hi, more, hbegins⟩ := hinterface
        · exact absurd rfl hne
        · dsimp only at hbegins
          exact ⟨i, hmem, hi, more ++ "." ++ name, by simp [hbegins, String.append_assoc]⟩
    · cases hstep
  · rintro ⟨name, interface⟩ ⟨rest, k⟩ c₃ hread hstep
    dsimp only at hstep
    rw [run_is_bind, run_peekIdent_bind, run_ite] at hstep
    split at hstep
    · obtain ⟨point, i', vs, rfl, -, -⟩ := ahead_of_point heof ‹_›
      rw [run_discard_bind, run_advance_bind, run_advance_bind, run_bind_eq_ok] at hstep
      obtain ⟨text, c₄, -, hstep⟩ := hstep
      cases hstep
    · cases hstep
      exact hread

end

end Grammar

namespace Layouts

variable {ω : Type} {L : Layouts ω} {i j k b : Nat} {self : Rules} {h : ω → Header}

/-! ### Lists -/

section Lists

variable {α : Type} {Q : ω → α → Prop} {item : ω → Parser α}

/-- What holds of each round holds of each element. -/
theorem Gathers.forall_mem {as : ω → List α} (h : Gathers (fun _ a _ => ∀ w, Q w (a w)) j as k)
    (w : ω) : ∀ a ∈ as w, Q w a := by
  obtain ⟨xs, rfl, hxs⟩ := h
  intro a ha
  obtain ⟨x, hx, rfl⟩ := List.mem_map.mp ha
  obtain ⟨-, -, -, -, hQ⟩ := hxs x hx
  exact hQ w

theorem Reads.enclosedEach {opening closing : String}
    (hitem : ∀ k, j < k → L.Reads item k fun a l => k < l ∧ ∀ w, Q w (a w)) :
    L.Reads (fun w => Grammar.enclosed opening closing (item w)) j fun as k =>
      j < k ∧ ∀ w, ∀ a ∈ as w, Q w a :=
  (Reads.enclosed (I := fun _ a _ => ∀ w, Q w (a w)) hitem).imp
    fun _ _ _ hread => ⟨hread.1, hread.2.forall_mem⟩

theorem Reads.repeatEach {test : Parser Bool} {holds : Nat → Prop}
    (htest : ∀ k, j ≤ k → L.Tests test k k (holds k))
    (hitem : ∀ k, j ≤ k → holds k → L.Reads item k fun a l => k < l ∧ ∀ w, Q w (a w)) :
    L.Reads (fun w => Grammar.repeatWhile test (item w)) j fun as k =>
      j ≤ k ∧ ∀ w, ∀ a ∈ as w, Q w a := by
  refine (Reads.repeatWhile (I := fun _ a _ => ∀ w, Q w (a w)) fun k hk => ?_).imp
    fun _ _ _ hread => ⟨hread.1, hread.2.forall_mem⟩
  refine ((htest k hk).optionalPart (hitem k hk)).imp fun o l _ ho => ?_
  exact ho.imp_left fun hnone => ⟨hnone.1, Nat.le_of_eq hnone.2.symm⟩

end Lists

/-! ### Parameters -/

theorem kind_eof (w : ω) : (L.input w).eof.kind = .eof := by
  show (L.eof w).erase.kind = .eof
  rw [L.eof_erase]
  rfl

variable (L) in
/-- Nested types are read from tokens that write them. -/
def WritesTypes (self : Rules) : Prop :=
  ∀ w c, Uses (L.input w) self.type c fun ts t => WritesType ts t.erase

/-- A type that is read was written by the tokens it was read from. -/
theorem WritesTypes.type (htypes : L.WritesTypes self) (w : ω) (c : Grammar.Cursor) :
    Uses (L.input w) (type self) c fun ts t => WritesType ts t.erase :=
  uses_type_of (L.kind_eof w) (htypes w) c

/-- The types inside of types were written, too. -/
theorem writesTypes_rules (depth : Nat) : L.WritesTypes (rules depth) := by
  cases depth with
  | zero => exact fun _ _ => .fail
  | succ depth => exact fun w c => uses_type (L.kind_eof w) depth c

/-- What is known of each run of a parser is known of what it reads. -/
theorem Reads.running {α : Type} {P : (ω → α) → Nat → Prop}
    {Q : ω → α → Grammar.Cursor → Prop} {p : ω → Parser α} (hp : L.Reads p j P)
    (hQ : ∀ w a c, p w (L.input w) (L.cursor w j) = .ok (a, c) → Q w a c) :
    L.Reads p j fun a k => P a k ∧ ∀ w, Q w (a w) (L.cursor w k) := by
  intro hj
  rcases hp hj with ⟨a, k, hk, ha, hrun⟩ | he
  · exact .inl ⟨a, k, hk, ⟨ha, fun w => hQ w _ _ (hrun w)⟩, hrun⟩
  · exact .inr he

/-- What was consumed stands in the text. -/
theorem infix_tokens_of_rest {w : ω} {ts : List Token}
    (h : (L.cursor w j).rest = ts ++ (L.cursor w k).rest) : ts <:+: L.tokens w := by
  refine ⟨(L.tokens w).take j, (L.tokens w).drop k, ?_⟩
  change (L.tokens w).drop j = ts ++ (L.tokens w).drop k at h
  rw [List.append_assoc, ← h, List.take_append_drop]

/-! ### Names -/

/-- The text of a name is an identifier of the file. -/
theorem identFrom_token (hident : (L.lexeme k).isIdent = true) (w : ω) :
    IdentFrom (L.tokens w) (L.lexeme k).text := by
  have hk : k < (L.tokens w).length := L.length_tokens w ▸ L.lt_size_of_isIdent hident
  have htoken : L.token w k = (L.tokens w)[k] := by rw [Texts.token, List.getElem?_eq_getElem hk]; rfl
  exact ⟨L.token w k, htoken ▸ List.getElem_mem hk, by simpa using hident, by simp⟩

theorem dottedFrom_moreSegments : L.Reads (fun _ => moreSegments) j fun names k =>
    j ≤ k ∧ ∀ w, ∀ s ∈ names w, IdentFrom (L.tokens w) s := by
  refine (Reads.repeatWhile (I := fun _ a _ => ∀ w, IdentFrom (L.tokens w) (a w)) fun k _ => ?_).imp
    fun _ _ _ hread => ⟨hread.1, hread.2.forall_mem⟩
  simp only [optionalPart, bind_assoc, pure_bind, reads_is, reads_peekIdent, reads_ite,
    Bool.and_eq_true]
  refine ⟨fun hsegment => ?_, fun _ => .pure fun _ => .none (Nat.le_refl k)⟩
  have hk := L.lt_size_of_isIdent hsegment.2
  rw [reads_discard, reads_advance (by omega)]
  simp only [reads_advance hk, token_text]
  exact .pure fun _ => .some ⟨by omega, identFrom_token hsegment.2⟩

theorem identFrom_firstSegment : L.Reads (fun _ => firstSegment) j fun name k =>
    j < k ∧ ∀ w, IdentFrom (L.tokens w) (name w) := by
  simp only [firstSegment, reads_identText, reads_accept, if_true, Bool.false_eq_true, if_false]
  refine fun hident => ⟨fun _ => ?_, fun _ => .pure fun _ => ⟨by omega, identFrom_token hident⟩⟩
  rw [reads_iff_bind_pure, reads_identText]
  exact fun hident => .pure fun _ => ⟨by omega, identFrom_token hident⟩

/-- A qualified name is made of identifiers of the file. -/
theorem dottedFrom_qualifiedName : L.Reads (fun _ => qualifiedName) j fun name k =>
    j < k ∧ ∀ w, DottedFrom (L.tokens w) (name w) := by
  refine identFrom_firstSegment.bind fun first k hfirst => ?_
  refine dottedFrom_moreSegments.bind fun more l hmore => ?_
  exact .pure fun _ => ⟨by omega, fun w =>
    ⟨first w, more w, List.forall_mem_cons.mpr ⟨hfirst.2 w, hmore.2 w⟩, rfl⟩⟩

/-! ### Parameters of methods -/

theorem reads_paramModifiers :
    L.Reads (fun _ => repeatWhile atParamModifier do return (← advance).text) j fun mods k =>
      j ≤ k ∧ ∃ ms, mods = (fun _ => ms) ∧ ∀ m ∈ ms, m ∈ "scoped" :: paramModifiers := by
  refine (Reads.repeatWhile (I := fun _ m _ => ∃ s, m = (fun _ => s) ∧
    s ∈ "scoped" :: paramModifiers) fun k hk => ?_).imp ?_
  · simp only [optionalPart, atParamModifier, bind_assoc, pure_bind, reads_current, reads_peek,
      token_kind, token_text, token_isWord, reads_ite]
    refine ⟨fun h => ?_, fun _ => .pure fun _ => .none (Nat.le_refl k)⟩
    have htext : (L.lexeme k).text ∈ "scoped" :: paramModifiers := by
      rcases Bool.or_eq_true_iff.mp h with h | h
      · exact List.mem_cons_of_mem _ (by simpa using (Bool.and_eq_true_iff.mp h).2)
      · have hword := (Bool.and_eq_true_iff.mp h).1
        rw [Token.isWord, Bool.and_eq_true, beq_iff_eq, beq_iff_eq] at hword
        exact hword.2 ▸ List.mem_cons_self
    have hlt : k < L.size := by
      refine L.lt_size_of_kind fun hk => ?_
      simp [hk, Token.isWord] at h
    simp only [reads_advance hlt, token_text]
    exact .pure fun _ => .some ⟨Nat.lt_succ_self k, _, rfl, htext⟩
  -- The modifiers of all layouts are put together one by one.
  · rintro mods k - ⟨hk, xs, rfl, hxs⟩
    refine ⟨hk, ?_⟩
    induction xs with
    | nil => exact ⟨[], rfl, nofun⟩
    | cons x xs ih =>
      obtain ⟨⟨-, -, -, -, s, rfl, hs⟩, hrest⟩ := List.forall_mem_cons.mp hxs
      obtain ⟨ms, hms, hmem⟩ := ih hrest
      refine ⟨s :: ms, ?_, List.forall_mem_cons.mpr ⟨hs, hmem⟩⟩
      funext w
      exact congrArg (s :: ·) (congrFun hms w)

theorem keptModifier_mem {ms : List String} (h : ∀ m ∈ ms, m ∈ "scoped" :: paramModifiers) :
    keptModifier ms ∈ "" :: "scoped" :: paramModifiers := by
  rw [keptModifier]
  split
  · decide
  · cases ms with
    | nil => exact List.mem_cons_self
    | cons m ms => exact List.mem_cons_of_mem _ (h m List.mem_cons_self)

/-- The type of a parameter was written in the file. -/
theorem readFrom_param (hself : L.Good b self) (hb : b ≤ j + 1) (htypes : L.WritesTypes self) :
    L.Reads (fun _ => param self) j fun p k =>
      j < k ∧ ∀ w, (p w).ReadFrom (L.tokens w) := by
  simp only [param, reads_offset]
  refine (allows_optionalAttributes hself hb).bind fun attributes as k hk hattributes => ?_
  refine reads_paramModifiers.bind fun mods l hmods => ?_
  obtain ⟨hl, ms, rfl, hms⟩ := hmods
  refine (Reads.running (yields_type hself (by omega)) fun w t c hrun =>
    htypes.type w _ t c hrun).bind fun t m ht => ?_
  obtain ⟨⟨hm, -⟩, ht⟩ := ht
  rw [reads_expectIdent]
  intro _
  refine (Allows.optionalPart tests_accept (Nat.le_succ _) fun _ =>
    (hself.expr (by omega)).allows).bind fun default d n hn hdefault => ?_
  rw [reads_spanFrom]
  refine .pure fun _ => ⟨by omega, fun w => ⟨?_, ?_⟩⟩
  · exact keptModifier_mem hms
  · obtain ⟨ts, hts, hwrites⟩ := ht w
    exact ⟨t w, ts, rfl, infix_tokens_of_rest hts, hwrites⟩

/-- So were those of all parameters of a list. -/
theorem readFrom_params (hself : L.Good b self) (hb : b ≤ j + 1) (htypes : L.WritesTypes self)
    {opening closing : String} :
    L.Reads (fun _ => params self opening closing) j fun ps k =>
      j < k ∧ ∀ w, ∀ p ∈ ps w, p.ReadFrom (L.tokens w) :=
  .enclosedEach fun _ _ => readFrom_param hself (by omega) htypes

/-! ### Members -/

end Layouts

/-- A declaration with what is known of all declarations in it. -/
structure Node.Listed (tokens : List Token) (n : Node) : Prop where
  isDeclaration : n.isDeclaration = true
  everywhere : n.Everywhere (Node.ReadFrom tokens)

/-- A member with what is known of it. -/
structure Node.MemberFrom (tokens : List Token) (n : Node) : Prop where
  isMember : n.isMember = true
  readFrom : n.ReadFrom tokens

/-- What declares nothing need not be looked into. -/
theorem Node.everywhere_of_not_declares {tokens : List Token} {n : Node}
    (hn : n.declares = false) : n.Everywhere (Node.ReadFrom tokens) := by
  rw [everywhere_iff_of_not_holds (Bool.or_eq_false_iff.mp hn).2]
  cases n <;> first | exact trivial | cases hn

/-- A member is listed as a declaration. -/
theorem Node.Listed.of_isMember {tokens : List Token} {n : Node} (hn : n.isMember = true)
    (h : n.ReadFrom tokens) : n.Listed tokens := by
  refine ⟨?_, (everywhere_iff_of_not_holds (holdsDeclarations_of_isMember hn)).mpr h⟩
  cases n <;> first | rfl | exact absurd hn Bool.false_ne_true

namespace Grammar

variable (self : Rules) (h : Header) (t : TypeRef) (name : String) (nameSpan : Span)
  (tokens : List Token)

theorem memberFrom_indexerDecl : Returns (indexerDecl self h t name) (Node.MemberFrom tokens) := by
  refine .bind fun _ => .bind fun _ => .bind fun _ => .bind fun _ => .pure ⟨rfl, ?_⟩
  have hname (interface : String) : MemberName tokens (interface ++ "this") := .indexer interface
  by_cases hempty : name.isEmpty = true
  · simpa [Node.ReadFrom, hempty] using hname ""
  · simpa [Node.ReadFrom, hempty, String.append_assoc] using hname (name ++ ".")

variable {tokens name} in
theorem memberFrom_propertyRest (hname : MemberName tokens name) :
    Returns (propertyRest self h t name nameSpan) (Node.MemberFrom tokens) :=
  .bind fun _ => .bind fun _ => .bind fun _ => .pure ⟨rfl, hname⟩

theorem memberFrom_fieldRest :
    Returns (fieldRest self h t name nameSpan) (Node.MemberFrom tokens) :=
  .bind fun _ => .bind fun _ => .bind fun _ => .bind fun _ => .bind fun _ => .pure ⟨rfl, trivial⟩

theorem isEnumMember_enumMember : Returns (enumMember self) fun n => n.isEnumMember = true :=
  .bind fun _ => .bind fun _ => .bind fun _ => .bind fun _ => .bind fun _ => .pure rfl

end Grammar

namespace Layouts

variable {ω : Type} {L : Layouts ω} {i j k b : Nat} {self : Rules} {h : ω → Header}

variable (L) in
/-- From the token at `j` on, a token is consumed and declarations are yielded of which is known
what is to be known. -/
def Lists (p : ω → Parser Node) (j : Nat) : Prop :=
  L.Reads p j fun n k => j < k ∧ ∀ w, (n w).Listed (L.tokens w)

theorem Lists.since {p : ω → Parser Node} (hp : L.Lists p k) (hjk : j ≤ k) :
    L.Reads p k fun n l => j < l ∧ ∀ w, (n w).Listed (L.tokens w) :=
  Reads.imp hp fun _ _ _ hread => ⟨Nat.lt_of_le_of_lt hjk hread.1, hread.2⟩

/-- A production that builds a member lists it. -/
theorem Yields.lists {p : ω → Parser Node} (hp : L.Yields i p j)
    (hmember : ∀ w, Returns (p w) (Node.MemberFrom (L.tokens w))) : L.Lists p j := by
  refine (Reads.running hp (Q := fun w n _ => n.MemberFrom (L.tokens w)) fun w _ _ hrun =>
    hmember w _ _ _ hrun).imp ?_
  rintro n k - ⟨⟨hk, -⟩, hn⟩
  exact ⟨hk, fun w => .of_isMember (hn w).isMember (hn w).readFrom⟩

/-! ### Methods and constructors -/

section Members

variable (hself : L.Good b self) (htypes : L.WritesTypes self)
include hself htypes

/-- A constructor is called by the identifier in front of its parenthesis. -/
theorem lists_constructorDecl (hb : b ≤ j + 1) :
    L.Lists (fun w => constructorDecl self (h w)) j := by
  simp only [Lists, constructorDecl, reads_expectIdent, token_text]
  intro hident
  have hname (w : ω) := MemberName.ident (identFrom_token hident w)
  refine (readFrom_params hself (by omega) htypes).bind fun params k hread => ?_
  obtain ⟨hk, hparams⟩ := hread
  refine (tests_accept.optionalPart fun _ => reads_chainedCall hself (by omega)).bindPerhaps
    (fun l hl => ?_) ?_
  · refine (yields_body hself (by omega)).bind fun body d m hm hbody => ?_
    rw [reads_spanFrom]
    exact .pure fun _ => ⟨by omega, fun w => .of_isMember rfl ⟨hparams w, hname w⟩⟩
  · rintro - l ⟨hl, toBase, args, as, -, rfl⟩
    refine (yields_body hself (by omega)).bind fun body d m hm hbody => ?_
    rw [reads_spanFrom]
    exact .pure fun _ => ⟨by omega, fun w => .of_isMember rfl ⟨hparams w, hname w⟩⟩

/-- A method is listed under the name it is given, if that may be the name of a member. -/
theorem lists_plainMethod (hb : b ≤ j + 1) (returnType : ω → TypeRef) (name : String)
    (nameSpan : ω → Span) (isOperator isDestructor : Bool)
    (hname : ∀ w, MemberName (L.tokens w) name) :
    L.Lists (fun w => plainMethod self (h w) (returnType w) name (nameSpan w) isOperator
      isDestructor) j := by
  refine (readFrom_params hself (by omega) htypes).bind fun params k hread => ?_
  obtain ⟨hk, hparams⟩ := hread
  refine (yields_body hself (by omega)).bind fun body d l hl hbody => ?_
  rw [reads_spanFrom]
  exact .pure fun _ => ⟨by omega, fun w => .of_isMember rfl ⟨hparams w, .inl rfl, hname w⟩⟩

theorem lists_destructorDecl (hb : b ≤ j + 1) : L.Lists (fun w => destructorDecl self (h w)) j := by
  simp only [Lists, destructorDecl, reads_discard, reads_expect, reads_expectIdent, token_text]
  intro _ hident
  exact (lists_plainMethod hself htypes (by omega) _ _ _ _ _ fun w =>
    .destructor (identFrom_token hident w)).since (by omega)

/-- An operator is called by the word `operator` and one of the tokens that may be
overloaded. -/
theorem lists_operatorDecl (hb : b ≤ j + 1) (returnType : ω → TypeRef) :
    L.Lists (fun w => operatorDecl self (h w) (returnType w)) j := by
  simp only [Lists, operatorDecl, reads_expect, reads_discard]
  intro _
  refine uniform_accept.bindUniform fun _ k hk => ?_
  refine reads_overloadedOp.bind ?_
  rintro - l ⟨hl, op, hop, rfl⟩
  rw [reads_spanFrom]
  exact (lists_plainMethod hself htypes (by omega) _ _ _ _ _ fun _ => .operator hop).since
    (by omega)

theorem lists_conversionDecl (hb : b ≤ j + 1) (hj : j < L.size) :
    L.Lists (fun w => conversionDecl self (h w)) j := by
  simp only [Lists, conversionDecl, reads_advance hj, reads_expect, reads_discard, token_text]
  intro _
  refine uniform_accept.bindUniform fun _ k hk => ?_
  refine (Reads.running (yields_type hself (by omega)) fun w t c hrun =>
    htypes.type w _ t c hrun).bind fun t l hread => ?_
  obtain ⟨⟨hl, c, ht⟩, hwrites⟩ := hread
  have htext (w : ω) : (t w).text = c.text := by
    rw [← ht.erase w]
    exact (TypeRef.text_erase _).symm
  simp only [reads_spanFrom, htext]
  refine (lists_plainMethod hself htypes (by omega) _ _ _ _ _ fun w => ?_).since (by omega)
  obtain ⟨ts, hts, hwrites⟩ := hwrites w
  rw [← htext w]
  exact .conversion _ (infix_tokens_of_rest hts) hwrites

theorem lists_methodRest (hb : b ≤ j) (returnType : ω → TypeRef) (name : String)
    (nameSpan : ω → Span) (interface : String) :
    L.Reads (fun w => methodRest self (h w) (returnType w) name (nameSpan w) interface) j
      fun m k => j < k ∧ ∀ w, (m w).name = name ∧ (m w).explicitInterface = interface ∧
        ∀ p ∈ (m w).params, p.ReadFrom (L.tokens w) := by
  refine (allows_optionalTypeParams hself (by omega)).bind fun typeParams ps k hk _ => ?_
  refine (readFrom_params hself (by omega) htypes).bind fun params l hread => ?_
  obtain ⟨hl, hparams⟩ := hread
  refine (allows_constraints hself (by omega)).bind fun constraints cs m hm _ => ?_
  refine (yields_body hself (by omega)).bind fun body d n hn _ => ?_
  rw [reads_spanFrom]
  exact .pure fun _ => ⟨by omega, fun w => ⟨rfl, rfl, hparams w⟩⟩

/-- The name of a method and the interface before it. -/
theorem names_memberNameWithInterface (hb : b ≤ j + 1) :
    L.Reads (fun _ => memberNameWithInterface self) j fun a k => j < k ∧ Uniform a ∧
      ∀ w, ((a w).2 = "" ∨ BeginsWithIdent (L.tokens w) (a w).2) ∧
        ∃ i ∈ L.tokens w, i.isIdent = true ∧
          ∃ more, (a w).1 = i.text ++ more ∧ (more = "" ∨ (L.lexeme k).is "." = true) := by
  refine (Reads.running (uniform_memberNameWithInterface hself hb) fun w a c hrun =>
    run_memberNameWithInterface_eq_ok (L.kind_eof w) (htypes w) hrun).imp ?_
  rintro a k - ⟨⟨hk, ha⟩, hname⟩
  refine ⟨hk, ha, fun w => ?_⟩
  have hsub {i : Token} (hi : i ∈ (L.cursor w j).rest) : i ∈ L.tokens w := List.mem_of_mem_drop hi
  have hahead : (ahead (L.input w) (L.cursor w k).rest 0) = L.token w k := by
    simp [ahead, Texts.cursor, Texts.token, Texts.input]
  obtain ⟨hinterface, i, hi, hident, more, htext, hmore⟩ := hname w
  rw [hahead, token_is] at hmore
  refine ⟨hinterface.imp_right ?_, i, hsub hi, hident, more, htext, hmore⟩
  rintro ⟨i, hi, hbegins⟩
  exact ⟨i, hsub hi, hbegins⟩

omit hself htypes in
/-- A name that no point follows is an identifier. -/
theorem identFrom_of_names {w : ω} {name : String} (hpoint : (L.lexeme k).is "." = false)
    (h : ∃ i ∈ L.tokens w, i.isIdent = true ∧
      ∃ more, name = i.text ++ more ∧ (more = "" ∨ (L.lexeme k).is "." = true)) :
    IdentFrom (L.tokens w) name := by
  obtain ⟨i, hi, hident, more, htext, hmore⟩ := h
  obtain rfl : more = "" := hmore.resolve_right (by simp [hpoint])
  exact ⟨i, hi, hident, by simpa using htext⟩

/-- A member with a type in front has its name behind it, and perhaps an interface in front
of the name. -/
theorem lists_typedMember (hb : b ≤ j + 1) (hij : i ≤ j) (hh : L.Heads i j h) :
    L.Lists (fun w => typedMember self (h w)) j := by
  -- Each kind of member is listed as what it is, under the name that stands behind the type.
  refine Reads.typedMember (T := fun t k => j < k ∧ ∃ c, L.Laid j k t c)
    (M := fun k name interface l => k < l ∧
      ∀ w, (interface = "" ∨ BeginsWithIdent (L.tokens w) interface) ∧
        ∃ i ∈ L.tokens w, i.isIdent = true ∧
          ∃ more, name = i.text ++ more ∧ (more = "" ∨ (L.lexeme l).is "." = true))
    (yields_type hself hb)
    (fun ⟨hk, _⟩ => (names_memberNameWithInterface hself htypes (by omega)).imp ?_)
    (fun ⟨hk, _⟩ => (lists_operatorDecl hself htypes (by omega) _).since (by omega))
    (fun {t k} ⟨hk, c, ht⟩ => ((yields_indexerDecl hself (by omega) (by omega) (hh.mono (by omega))
      (ht.mono hij (Nat.le_refl k)) "").lists fun w =>
        memberFrom_indexerDecl self (h w) (t w) _ _).since (by omega))
    (fun {t k name interface l} ⟨hk, c, ht⟩ ⟨hl, _⟩ => ((yields_indexerDecl hself (by omega)
      (by omega) (hh.mono (by omega)) (ht.mono hij (by omega)) name).lists fun w =>
        memberFrom_indexerDecl self (h w) (t w) _ _).since (by omega))
    (fun ⟨hk, _⟩ ⟨hl, hname⟩ hpoint =>
      (lists_methodRest hself htypes (by omega) _ _ _ _).imp ?_)
    (fun {t k name interface l} ⟨hk, c, ht⟩ ⟨hl, hname⟩ hpoint => ((yields_propertyRest hself
      (by omega) (by omega) (hh.mono (by omega)) (ht.mono hij (Nat.le_of_lt hl)) name
      fun w => ⟨L.start w k, L.behind w l⟩).lists fun w => memberFrom_propertyRest self (h w) (t w) _
        (.ident (identFrom_of_names hpoint (hname w).2))).since (by omega))
    (fun {t k name interface l} ⟨hk, c, ht⟩ ⟨hl, _⟩ => ((yields_fieldRest hself (by omega)
      (Nat.le_trans hij (Nat.le_of_lt hk)) hl (hh.mono (by omega)) (ht.mono hij (Nat.le_of_lt hl))
      name (fun w => ⟨L.start w k, L.behind w l⟩) fun _ => rfl).lists fun w =>
        memberFrom_fieldRest self (h w) (t w) _ _ _).since (by omega))
  · rintro - l - ⟨hl, ⟨⟨name, interface⟩, rfl⟩, hname⟩
    exact ⟨name, interface, rfl, hl, hname⟩
  · rintro m n - ⟨hn, hm⟩
    refine ⟨by omega, fun w => .of_isMember rfl ?_⟩
    obtain ⟨hmname, hminterface, hparams⟩ := hm w
    have hident := identFrom_of_names hpoint (hname w).2
    refine ⟨hparams, ?_, hmname ▸ .ident hident⟩
    exact (hminterface ▸ (hname w).1).imp_right fun hbegins => ⟨hbegins, hmname ▸ hident⟩

end Members

/-! ### Types -/

theorem lists_delegateDecl (hself : L.Good b self) (hb : b ≤ j + 1) :
    L.Lists (fun w => delegateDecl self (h w)) j := by
  simp only [Lists, delegateDecl, reads_discard, reads_expect]
  intro _
  refine (yields_type hself (by omega)).bind fun returnType t k hk _ => ?_
  rw [reads_expectIdent]
  intro hident
  refine (allows_optionalTypeParams hself (by omega)).bind fun typeParams ps l hl _ => ?_
  refine (yields_params hself (by omega)).bind fun params qs m hm _ => ?_
  rw [reads_discard]
  refine (allows_constraints hself (by omega)).bind fun _ _ n hn _ => ?_
  simp only [reads_discard, reads_expect, token_text, reads_spanFrom]
  exact fun _ => .pure fun _ => ⟨by omega, fun w => .of_isMember rfl (identFrom_token hident w)⟩

theorem lists_eventDecl (hself : L.Good b self) (hb : b ≤ j + 1) :
    L.Lists (fun w => eventDecl self (h w)) j := by
  simp only [Lists, eventDecl, reads_discard, reads_expect]
  intro _
  refine (yields_type hself (by omega)).bind fun t c k hk _ => ?_
  rw [reads_expectIdent]
  intro hident
  refine dottedFrom_moreSegments.bind fun segments l hread => ?_
  obtain ⟨hl, hsegments⟩ := hread
  refine (yields_eventBody hself (by omega)).bind fun accessors cs m hm _ => ?_
  rw [reads_spanFrom]
  refine .pure fun _ => ⟨by omega, fun w => .of_isMember rfl (.ident ?_)⟩
  cases hlast : (segments w).getLast? with
  | none => simpa [hlast] using identFrom_token hident w
  | some s => simpa [hlast] using hsegments w s (List.mem_of_getLast? hlast)

/-- The members of an enumeration are listed as such. -/
theorem listed_enumMembers (hself : L.Good b self) (hb : b ≤ j + 1) :
    L.Reads (fun _ => enclosed openBrace closeBrace (enumMember self)) j fun ms k =>
      j < k ∧ ∀ w, ∀ m ∈ ms w, m.isEnumMember = true := by
  refine .enclosedEach fun k hk => (Reads.returning (yields_enumMember hself (by omega)) fun _ =>
    isEnumMember_enumMember self).imp fun m l _ hread => ?_
  exact ⟨hread.1.1, hread.2⟩

section Types

variable (hmember : ∀ {j}, b ≤ j → L.Lists (fun _ => self.member) j)

include hmember in
theorem listed_typeBody (hb : b ≤ j + 1) (kind : TypeKind) (name : String) :
    L.Reads (fun _ => typeBody self kind name) j fun ms k =>
      j < k ∧ ∀ w, ∀ m ∈ ms w, m.Listed (L.tokens w) := by
  refine Reads.typeBody <| (Reads.repeatEach (fun _ _ => tests_isNot) fun k hk _ =>
    Reads.unlessEnd rfl fun _ => hmember (by omega)).imp ?_
  rintro ms k - ⟨hk, hms⟩ l hl
  exact ⟨by omega, hms⟩

include hmember in
theorem listed_typeContents (hself : L.Good b self) (hb : b ≤ j + 1) (kind : TypeKind)
    (name : String) :
    L.Reads (fun _ => typeContents self kind name) j fun contents k =>
      j < k ∧ ∀ w, (∀ m ∈ (contents w).1, m.Listed (L.tokens w)) ∧
        ∀ m ∈ (contents w).2, m.isEnumMember = true := by
  refine Reads.typeContents ((listed_enumMembers hself hb).imp ?_)
    ⟨Nat.lt_succ_self j, fun w => ⟨List.forall_mem_nil _, List.forall_mem_nil _⟩⟩
    ((listed_typeBody hmember hb kind name).imp ?_)
  · rintro ms k - ⟨hk, hms⟩ l hl
    exact ⟨by omega, fun w => ⟨List.forall_mem_nil _, hms w⟩⟩
  · rintro ms k - ⟨hk, hms⟩
    exact ⟨hk, fun w => ⟨hms w, List.forall_mem_nil _⟩⟩

/-- What is known of the contents of types is known of the types that are read. A type has the name
that is written in it. -/
theorem Reads.typeDecl {P : ω → List Node × List Node → Prop} (hself : L.Good b self)
    (hb : b ≤ j + 1) (hj : j < L.size) (hcontents : ∀ {k kind name}, j < k →
      L.Reads (fun _ => Grammar.typeContents self kind name) k fun contents l =>
        k < l ∧ ∀ w, P w (contents w)) :
    L.Reads (fun w => Grammar.typeDecl self (h w)) j fun n l => j < l ∧ ∀ w, ∃ t k,
      n w = .typeDecl t ∧ P w (t.members, t.enumMembers) ∧ (L.lexeme k).isIdent = true ∧
        t.name = (L.lexeme k).text ∧ t.nameSpan = (L.token w k).span := by
  refine (reads_typeKind hj).bindUniform fun kind k hk => ?_
  rw [reads_expectIdent]
  intro hident
  refine (allows_optionalTypeParams hself (by omega)).bind fun typeParams ps l hl _ => ?_
  refine (Allows.optionalList tests_is (Nat.le_refl l) fun _ =>
    (yields_params hself (by omega)).allows).bind fun primaryParams qs m hm _ => ?_
  refine (Allows.optionalList tests_accept (Nat.le_succ m) fun _ => (Yields.separated fun n hn =>
    yields_baseType hself (by omega)).allows).bind fun baseTypes ts n hn _ => ?_
  refine (allows_constraints hself (by omega)).bind fun constraints cs o ho _ => ?_
  simp only [token_text]
  refine (hcontents (by omega)).bind fun contents p hread => ?_
  obtain ⟨hp, hcontents⟩ := hread
  rw [reads_spanFrom]
  exact .pure fun _ => ⟨by omega, fun w => ⟨_, k, rfl, hcontents w, hident, rfl, rfl⟩⟩

include hmember in
/-- The members of a type are listed with it, and nothing else is. -/
theorem lists_typeDecl (hself : L.Good b self) (hb : b ≤ j + 1) (hj : j < L.size) :
    L.Lists (fun w => typeDecl self (h w)) j := by
  refine (Reads.typeDecl (P := fun w contents => (∀ m ∈ contents.1, m.Listed (L.tokens w)) ∧
    ∀ m ∈ contents.2, m.isEnumMember = true) hself hb hj fun hk =>
      listed_typeContents hmember hself (by omega) _ _).imp fun n l _ hread =>
        ⟨hread.1, fun w => ?_⟩
  obtain ⟨t, k, hnode, ⟨hmembers, henum⟩, hident, hname, -⟩ := hread.2 w
  rw [hnode]
  refine ⟨rfl, (Node.everywhere_iff_of_holds rfl).mpr ⟨⟨fun m hm => (hmembers m hm).isDeclaration,
    henum, hname ▸ identFrom_token hident w⟩, fun c hc => ?_⟩⟩
  obtain ⟨front, hchildren, hfront⟩ := Node.exists_children_typeDecl t
  rw [hchildren, List.mem_append, List.mem_append] at hc
  rcases hc with (hc | hc) | hc
  · exact Node.everywhere_of_not_declares (hfront c hc)
  · exact Node.everywhere_of_not_declares (Node.declares_of_isEnumMember (henum c hc))
  · exact (hmembers c hc).everywhere

include hmember in
/-- One case for each kind of member. -/
theorem lists_member (hself : L.Good b self) (htypes : L.WritesTypes self) (hb : b ≤ j + 1) :
    L.Lists (fun _ => member self) j :=
  Reads.member (reads_header hself hb)
    (fun ⟨hk, _⟩ => (lists_delegateDecl hself (by omega)).since hk)
    (fun ⟨hk, _⟩ hj => (lists_typeDecl hmember hself (by omega) hj).since hk)
    (fun ⟨hk, _⟩ => (lists_destructorDecl hself htypes (by omega)).since hk)
    (fun ⟨hk, _⟩ => (lists_eventDecl hself (by omega)).since hk)
    (fun ⟨hk, _⟩ hj => (lists_conversionDecl hself htypes (by omega) hj).since hk)
    (fun ⟨hk, _⟩ => (lists_constructorDecl hself htypes (by omega)).since hk)
    (fun ⟨hk, hh⟩ => (lists_typedMember hself htypes (by omega) hk hh).since hk)

include hmember in
theorem lists_typeLevelDecl (hself : L.Good b self) (htypes : L.WritesTypes self) (hb : b ≤ j + 1)
    [Nonempty ω] : L.Lists (fun _ => typeLevelDecl self) j :=
  Reads.typeLevelDecl hself hb (lists_member hmember hself htypes hb)

end Types

/-! ### Namespaces -/

variable (L) in
/-- From the token at `j` on, a token is consumed and namespaces are yielded in which is known of
all declarations what is to be known. -/
def ListsNamespace (p : Parser (NamespaceDecl Node)) (j : Nat) : Prop :=
  L.Reads (fun _ => p) j fun d k =>
    j < k ∧ ∀ w, (Node.namespaceDecl (d w)).Everywhere (Node.ReadFrom (L.tokens w))

section Namespaces

variable (hmember : ∀ {j}, b ≤ j → L.Lists (fun _ => self.member) j)
  (hnamespace : ∀ {j}, b ≤ j → L.ListsNamespace self.namespaceDecl j)

include hmember hnamespace in
theorem listed_namespaceEntry (hself : L.Good b self) (htypes : L.WritesTypes self) (hb : b ≤ j)
    (name : String) [Nonempty ω] :
    L.Reads (fun _ => namespaceEntry self name) j fun e k =>
      j < k ∧ ∀ w, ∀ n ∈ Layered.nodes (e w), n.Everywhere (Node.ReadFrom (L.tokens w)) := by
  refine Reads.namespaceEntry ((yields_usingDirective hself (by omega)).imp ?_)
    ((Reads.and (hself.namespaceDecl hb) (hnamespace hb)).imp ?_)
    ((lists_typeLevelDecl hmember hself htypes (by omega)).imp ?_)
  · rintro d k - ⟨hk, -⟩
    exact ⟨hk, fun w => List.forall_mem_singleton.mpr
      ((Node.everywhere_iff_of_not_holds rfl).mpr trivial)⟩
  · rintro d k - ⟨⟨-, e, hd⟩, hk, hlisted⟩
    exact ⟨⟨_, hd.fileScoped_eq⟩, hk, fun w => List.forall_mem_singleton.mpr (hlisted w)⟩
  · rintro d k - ⟨hk, hlisted⟩
    exact ⟨hk, fun w => List.forall_mem_singleton.mpr (hlisted w).everywhere⟩

include hmember hnamespace in
/-- A namespace lists what stands in it, types and further namespaces. -/
theorem lists_namespaceDecl (hself : L.Good b self) (htypes : L.WritesTypes self) (hb : b ≤ j + 1)
    [Nonempty ω] : L.ListsNamespace (namespaceDecl self) j := by
  refine (Reads.namespaceDecl (E := fun _ _ es => ∀ w, ∀ e ∈ es w, ∀ n ∈ Layered.nodes e,
    n.Everywhere (Node.ReadFrom (L.tokens w)))
    (dottedFrom_qualifiedName.imp fun _ _ _ hread => hread.2) (fun _ _ => List.forall_mem_nil _)
    fun name hk => Reads.repeatEach (fun _ _ => tests_isNot) fun l hl _ =>
      Reads.unlessEnd (by simp) fun _ =>
        listed_namespaceEntry hmember hnamespace hself htypes (by omega) name).imp ?_
  rintro d m - ⟨hname, k, l, es, hjk, hkl, hlm, hes, hholds⟩
  refine ⟨by omega, fun w => (Node.everywhere_iff_of_holds rfl).mpr ⟨hname w, fun c hc => ?_⟩⟩
  obtain ⟨e, he, hc⟩ := List.mem_flatMap.mp ((hholds w).mem_nodes hc)
  exact hes w e he c hc

end Namespaces

/-! ### Files -/

theorem mem_children_unit {u : CompilationUnit Node} {c : Node} : c ∈ (Node.unit u).children ↔
    (∃ a ∈ u.attributes, .attribute a = c) ∨ (∃ d ∈ u.usings, .usingDirective d = c) ∨
      (∃ ns, u.fileScopedNamespace = some ns ∧ .namespaceDecl ns = c) ∨ c ∈ u.members := by
  simp [Node.children]

/-- What is known of all declarations of a file and of some nodes is known of a file that lists no
others. -/
theorem everywhere_of_children {tokens : List Token} {u v : CompilationUnit Node} (ns : List Node)
    (hu : (Node.unit u).Everywhere (Node.ReadFrom tokens))
    (hns : ∀ n ∈ ns, n.Everywhere (Node.ReadFrom tokens))
    (hv : (Node.unit v).children ⊆ (Node.unit u).children ++ ns) :
    (Node.unit v).Everywhere (Node.ReadFrom tokens) := by
  refine (Node.everywhere_iff_of_holds rfl).mpr ⟨trivial, fun c hc => ?_⟩
  exact (List.mem_append.mp (hv hc)).elim (((Node.everywhere_iff_of_holds rfl).mp hu).2 c) (hns c)

theorem everywhere_gather {tokens : List Token} {ns : NamespaceDecl Node} {decl : Node}
    (hns : (Node.namespaceDecl ns).Everywhere (Node.ReadFrom tokens))
    (hdecl : decl.Everywhere (Node.ReadFrom tokens)) :
    (Node.namespaceDecl (gather ns decl)).Everywhere (Node.ReadFrom tokens) := by
  obtain ⟨hname, hchildren⟩ := (Node.everywhere_iff_of_holds rfl).mp hns
  refine (Node.everywhere_iff_of_holds rfl).mpr ⟨hname, fun c hc => ?_⟩
  rw [show (Node.namespaceDecl (gather ns decl)).children =
    (Node.namespaceDecl ns).children ++ [decl] by simp [Node.children, gather]] at hc
  rcases List.mem_append.mp hc with hc | hc
  · exact hchildren c hc
  · exact List.mem_singleton.mp hc ▸ hdecl

/-- A declaration that is added to a file may be one of a namespace of the file. -/
theorem everywhere_addMember {tokens : List Token} {u : CompilationUnit Node} {decl : Node}
    (hu : (Node.unit u).Everywhere (Node.ReadFrom tokens))
    (hdecl : decl.Everywhere (Node.ReadFrom tokens)) :
    (Node.unit (addMember u decl)).Everywhere (Node.ReadFrom tokens) := by
  unfold addMember
  split
  · next ns hns =>
    have hscoped : (Node.namespaceDecl ns).Everywhere (Node.ReadFrom tokens) :=
      ((Node.everywhere_iff_of_holds rfl).mp hu).2 _ (by simp [Node.children, hns])
    refine everywhere_of_children [.namespaceDecl (gather ns decl)] hu
      (List.forall_mem_singleton.mpr (everywhere_gather hscoped hdecl)) fun c hc => ?_
    grind [mem_children_unit]
  · refine everywhere_of_children [decl] hu (List.forall_mem_singleton.mpr hdecl) fun c hc => ?_
    grind [mem_children_unit]

section Files

variable (hmember : ∀ {j}, b ≤ j → L.Lists (fun _ => self.member) j)
  (hnamespace : ∀ {j}, b ≤ j → L.ListsNamespace self.namespaceDecl j)
  {u : ω → CompilationUnit Node}

variable (L) in
/-- Files in which is known of all declarations what is to be known. -/
def UnitListed (u : ω → CompilationUnit Node) : Prop :=
  ∀ w, (Node.unit (u w)).Everywhere (Node.ReadFrom (L.tokens w))

include hmember hnamespace in
/-- One more entry of a file is listed. -/
theorem listed_unitStep (hself : L.Good b self) (htypes : L.WritesTypes self) (hb : b ≤ j + 1)
    (hlaid : L.UnitLaid u j) (hu : L.UnitListed u) [Nonempty ω] :
    L.Reads (fun w => unitStep self (u w)) j (Perhaps (fun v _ => L.UnitListed v) (· = j)) := by
  refine .unitStep hlaid (fun _ _ => hu) ((yields_usingDirective hself hb).imp ?_)
    (fun hbracket => (yields_attributes hself hb hbracket).imp ?_)
    ((Reads.and (yields_namespaceDecl hself hb)
      (lists_namespaceDecl hmember hnamespace hself htypes hb)).imp ?_)
    ((lists_typeLevelDecl hmember hself htypes hb).imp ?_)
  · intro d _ _ _ w
    refine everywhere_of_children [.usingDirective (d w)] (hu w) (List.forall_mem_singleton.mpr ?_)
      fun c hc => by grind [mem_children_unit]
    exact (Node.everywhere_iff_of_not_holds rfl).mpr trivial
  · intro as _ _ _ w
    refine everywhere_of_children ((as w).map .attribute) (hu w) ?_
      fun c hc => by grind [mem_children_unit]
    exact List.forall_mem_map.mpr fun a _ => (Node.everywhere_iff_of_not_holds rfl).mpr trivial
  · rintro d k - ⟨⟨-, e, hd⟩, -, hlisted⟩
    have hsingle (w : ω) := List.forall_mem_singleton.mpr (hlisted w)
    refine ⟨_, hd.fileScoped_eq, fun _ _ w => ?_, fun w => ?_⟩
    · exact everywhere_of_children _ (hu w) (hsingle w) fun c hc => by grind [mem_children_unit]
    · exact everywhere_of_children _ (hu w) (hsingle w) fun c hc => by grind [mem_children_unit]
  · exact fun d _ _ hread w => everywhere_addMember (hu w) (hread.2 w).everywhere

include hmember hnamespace in
/-- All entries of a file are listed. -/
theorem listed_unit (hself : L.Good b self) (htypes : L.WritesTypes self) (hb : b ≤ 1)
    [Nonempty ω] : L.Reads (fun _ => unit self) 0 fun u _ => L.UnitListed u :=
  .unit hself hb (fun _ => (Node.everywhere_iff_of_holds rfl).mpr ⟨trivial, nofun⟩)
    fun hlaid hu => listed_unitStep hmember hnamespace hself htypes (by omega) hlaid hu

end Files

/-! ### Nesting to any depth -/

/-- Productions that may be nested more often than tokens are left read what they should. -/
theorem lists_rules {depth : Nat} (h : L.size < depth + b) [Nonempty ω] :
    (∀ {j}, b ≤ j → L.Lists (fun _ => (rules depth).member) j) ∧
      ∀ {j}, b ≤ j → L.ListsNamespace (rules depth).namespaceDecl j :=
  nested_rules (M := fun p j => L.Lists (fun _ => p) j) (N := fun p j => L.ListsNamespace p j)
    (fun hj => ⟨fun _ hle => absurd hle (by omega), fun _ hle => absurd hle (by omega)⟩)
    (fun hgood hmember hnamespace _ hj =>
      ⟨lists_member hmember hgood (writesTypes_rules _) (Nat.succ_le_succ hj),
        lists_namespaceDecl hmember hnamespace hgood (writesTypes_rules _) (Nat.succ_le_succ hj)⟩) h

/-! ### Parsed files -/

/-- What is listed of a layout is known of its tokens. -/
theorem listed_unitOfTokens (L : Layouts ω) (w : ω) {u : CompilationUnit Node}
    (h : unitOfTokens (L.source w) (L.tokens w) (L.eof w) = .ok u) :
    (Node.unit u).Everywhere (Node.ReadFrom (L.tokens w)) := by
  have : Nonempty ω := ⟨w⟩
  have hdepth : L.size < L.size + 1 + 0 := Nat.lt_succ_self L.size
  obtain ⟨hmember, hnamespace⟩ := lists_rules hdepth
  obtain ⟨v, k, rfl, hv⟩ := exists_of_unitOfTokens (listed_unit hmember hnamespace
    (good_rules hdepth) (writesTypes_rules _) (Nat.zero_le 1)) h
  exact hv w

end Layouts

/-- What is known of the declarations of a parsed file: they were read from its tokens. -/
theorem readFrom_of_parse {source : List UInt8} {u : CompilationUnit Node}
    (h : parse source = .ok u) : ∃ tokens nullable, lex source = .ok (tokens, nullable) ∧
      ∀ d ∈ u.declarations, d.node.ReadFrom tokens.dropLast := by
  obtain ⟨tokens, nullable, v, hlex, hv, rfl⟩ := exists_unitOfTokens_of_parse h
  refine ⟨tokens, nullable, hlex, fun d hd => ?_⟩
  have hlisted : (Node.unit v).Everywhere (Node.ReadFrom tokens.dropLast) :=
    (Layouts.ofLex hlex).listed_unitOfTokens () hv
  have hmem := List.mem_map_of_mem (f := (·.node)) hd
  rw [CompilationUnit.map_node_declarations, List.mem_filter] at hmem
  -- that the file enables nullable references changes none of its declarations
  have heverywhere : (Node.unit { v with nullableEnabled := nullable }).Everywhere
      (Node.ReadFrom tokens.dropLast) :=
    (Node.everywhere_iff_of_holds rfl).mpr
      ⟨trivial, ((Node.everywhere_iff_of_holds rfl).mp hlisted).2⟩
  exact heverywhere _ hmem.1

end CSharpAudit
