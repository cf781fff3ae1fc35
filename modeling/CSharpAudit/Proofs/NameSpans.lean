import CSharpAudit.Proofs.Dependencies
import CSharpAudit.Proofs.Grammar.Provenance
import CSharpAudit.Proofs.Words
import CSharpAudit.Syntax.SpanTable

/-!
# Name spans

With its name a declaration records where the name is written. For most declarations this is the
place of one identifier; for members it may also be that of a dotted name, which ends with the
identifier that is the name. What stands behind a name tells the two apart from a name that goes on:
methods, properties and fields have no point there.

The production for events is the exception. It reads a dotted name as well and keeps its last
identifier, but it records the place of the first one.

## Main definitions

* `Node.namings` — the names that a declaration introduces, with the places recorded for them
* `Node.IsNameless` — operators, destructors and indexers, whose names are made up
* `Node.IsExplicitEvent` — events with an interface in front of their name
* `EndsWithName` — the text at a place ends with a name

## Main results

* `Layouts.nameSpanned_member` — whatever the production for members reads is named where it says
* `text_at_name_span_ends_with_name` — name spans and the span table lead to the names
* `name_span_of_explicit_event` — those of an event with an interface do not
-/

namespace CSharpAudit

open Grammar

/-! ### Names and their places -/

/-- An identifier among the given tokens that is the given name and stands at the end of the given
place. -/
def NamedBy (tokens : List Token) (name : String) (span : Span) : Prop :=
  ∃ t ∈ tokens, t.isIdent = true ∧ name = t.text ∧ span.start ≤ t.span.start ∧
    span.stop = t.span.stop

namespace Node

/-- The names that a declaration introduces, each with the place that is recorded for it. -/
def namings : Node → List (String × Span)
  | typeDecl d => [(d.name, d.nameSpan)]
  | delegate d => [(d.name, d.nameSpan)]
  | constructor d => [(d.name, d.nameSpan)]
  | method d => [(d.name, d.nameSpan)]
  | property d => [(d.name, d.nameSpan)]
  | event d => [(d.name, d.nameSpan)]
  | field d => d.vars.map fun v => (v.name, v.nameSpan)
  | _ => []

/-- Whether a declaration has a made-up name: an operator, a destructor or an indexer, which goes by
the keyword `this`. -/
def IsNameless (tokens : List Token) : Node → Prop
  | method d => d.isOperator = true ∨ d.isDestructor = true
  | property d => ∃ t ∈ tokens, t.is "this" = true ∧ d.nameSpan = t.span
  | _ => False

/-- Whether a declaration is an event whose name has an interface in front. The place recorded for
its name is that of the first identifier, behind which a point stands. -/
def IsExplicitEvent (tokens : List Token) : Node → Prop
  | event d => ∃ t point, [t, point] <:+: tokens ∧ t.isIdent = true ∧ d.nameSpan = t.span ∧
      point.is "." = true
  | _ => False

/-- A declaration whose names stand where they are said to, unless it is of one of the kinds for
which they do not. -/
def NameSpanned (tokens : List Token) (n : Node) : Prop :=
  n.IsNameless tokens ∨ n.IsExplicitEvent tokens ∨ ∀ p ∈ n.namings, NamedBy tokens p.1 p.2

/-- A declaration with one name has to record the place of that name. -/
theorem NameSpanned.of_single {tokens : List Token} {n : Node} {p : String × Span}
    (hn : n.namings = [p]) (hp : NamedBy tokens p.1 p.2) : n.NameSpanned tokens :=
  .inr (.inr (by rw [hn]; exact List.forall_mem_singleton.mpr hp))

end Node

namespace Grammar

variable {self : Rules} {x : Input} {c c' : Cursor} {name text : String}

/-- Behind the name of a member stand type arguments only if a point follows them. -/
theorem run_withInterfaceArgs_cases (h : withInterfaceArgs self name x c = .ok (text, c')) :
    c' = c ∧ text = name ∨ (ahead x c'.rest 0).is "." = true := by
  rw [withInterfaceArgs, run_bind_eq_ok] at h
  obtain ⟨b, c₁, hat, h⟩ := h
  obtain ⟨rfl, hargs⟩ := run_atInterfaceArgs_eq_ok hat
  cases b with
  | false =>
    cases h
    exact .inl ⟨rfl, rfl⟩
  | true =>
    obtain ⟨args, c₂, hargs, hpoint⟩ := hargs rfl
    rw [run_ite, if_pos rfl, run_bind_of_ok hargs] at h
    cases h
    exact .inr hpoint

/-- Operators and destructors have names that are made up. -/
theorem isNameless_plainMethod {tokens : List Token} (h : Header) (t : TypeRef) (name : String)
    (nameSpan : Span) {isOperator isDestructor : Bool} (hname : isOperator || isDestructor) :
    Returns (plainMethod self h t name nameSpan isOperator isDestructor)
      (Node.IsNameless tokens) :=
  .bind fun _ => .bind fun _ => .bind fun _ => .pure (by simpa [Node.IsNameless] using hname)

end Grammar

namespace Layouts

variable {ω : Type} {L : Layouts ω} {i j k b : Nat} {self : Rules} {h : ω → Header} {w : ω}

/-! ### Names that are read -/

/-- An identifier is named by its own token. -/
theorem namedBy_token (hident : (L.lexeme k).isIdent = true) (w : ω) {span : Span}
    (hstart : span.start ≤ L.start w k) (hstop : span.stop = L.behind w (k + 1)) :
    NamedBy (L.tokens w) (L.lexeme k).text span :=
  ⟨L.token w k, L.token_mem (L.lt_size_of_isIdent hident), by simpa using hident, by simp, hstart,
    hstop⟩

theorem ahead_cursor (w : ω) (k : Nat) :
    ahead (L.input w) (L.cursor w k).rest 0 = L.token w k := by
  simp [ahead, Texts.cursor, Texts.token, Texts.input]

theorem infix_tokens (w : ω) (hk : k + 1 < L.size) :
    [L.token w k, L.token w (k + 1)] <:+: L.tokens w := by
  rw [← L.length_tokens w] at hk
  have hdrop : (L.tokens w).drop k =
      [L.token w k, L.token w (k + 1)] ++ (L.tokens w).drop (k + 2) := by
    rw [List.drop_eq_getElem_cons (by omega), List.drop_eq_getElem_cons hk,
      L.token_eq_getElem (by omega), L.token_eq_getElem hk]
    rfl
  exact ⟨(L.tokens w).take k, (L.tokens w).drop (k + 2), by
    rw [List.append_assoc, ← hdrop, List.take_append_drop]⟩

/-- A member that goes by no name of its own. -/
theorem nameSpanned_of_isNameless {p : ω → Parser Node} (hp : L.Yields i p j)
    (hname : ∀ w tokens, Returns (p w) (Node.IsNameless tokens)) :
    L.Reads p j fun n _ => ∀ w, (n w).NameSpanned (L.tokens w) :=
  Reads.imp (Reads.running hp (Q := fun w n _ => n.IsNameless (L.tokens w))
    fun w _ _ hrun => hname w _ _ _ _ hrun) fun _ _ _ hread w => .inl (hread.2 w)

/-- A loop whose test fails at once reads nothing. -/
theorem Reads.repeatWhile_none {α : Type} {test : Parser Bool} {item : ω → Parser α}
    (htest : L.Reads (fun _ => test) j fun c k => k = j ∧ c = fun _ => false) :
    L.Reads (fun w => Grammar.repeatWhile test (item w)) j fun as k =>
      k = j ∧ as = fun _ => [] := by
  simp only [Grammar.repeatWhile, reads_bound, repeatFuel_succ, reads_tokensLeft,
    Grammar.optionalPart, bind_assoc]
  refine htest.bind ?_
  rintro - k ⟨rfl, rfl⟩
  exact .pure fun _ => ⟨rfl, rfl⟩

/-- An optional part that is not announced is not read. -/
theorem Reads.optionalPart_none {α : Type} {test : Parser Bool} {part : ω → Parser α}
    (htest : L.Reads (fun _ => test) j fun c k => k = j ∧ c = fun _ => false) :
    L.Reads (fun w => Grammar.optionalPart test (part w)) j fun o k =>
      k = j ∧ o = fun _ => none := by
  refine htest.bind ?_
  rintro - k ⟨rfl, rfl⟩
  exact .pure fun _ => ⟨rfl, rfl⟩

theorem reads_accept_none {s : String} (hs : (L.lexeme j).is s = false) :
    L.Reads (fun _ => accept s) j fun c k => k = j ∧ c = fun _ => false := by
  rw [reads_iff_bind_pure, reads_accept]
  exact ⟨fun h => absurd (hs.symm.trans h) Bool.false_ne_true, fun _ => .pure fun _ => ⟨rfl, rfl⟩⟩

section

variable (hself : L.Good b self)
include hself

/-- Only the arguments of an interface may stand between a name and its point. -/
theorem ends_withInterfaceArgs (hb : b ≤ j + 1) (name : String) [Nonempty ω] :
    L.Reads (fun _ => withInterfaceArgs self name) j fun a k => j ≤ k ∧ Uniform a ∧
      (k = j ∧ (a = fun _ => name) ∨ (L.lexeme k).is "." = true) := by
  obtain ⟨v⟩ := ‹Nonempty ω›
  refine .of_le fun hj => (Reads.running (uniform_withInterfaceArgs hself hb name) fun w a c hrun =>
    run_withInterfaceArgs_cases hrun).imp ?_
  rintro - k hk ⟨⟨hjk, text, rfl⟩, hends⟩
  refine ⟨hjk, ⟨text, rfl⟩, (hends v).imp ?_ fun hpoint => ?_⟩
  · rintro ⟨hcursor, rfl⟩
    exact ⟨eq_of_cursor_eq hk hj hcursor, rfl⟩
  · rwa [ahead_cursor, token_is] at hpoint

/-- The name of a member is the identifier in front of what follows it, unless that is a point. -/
theorem ends_memberNameWithInterface (hb : b ≤ j + 1) [Nonempty ω] :
    L.Reads (fun _ => memberNameWithInterface self) j fun a k => Uniform a ∧ ∃ l, j ≤ l ∧ k = l + 1 ∧
      ((L.lexeme l).isIdent = true ∧ (∀ w, (a w).1 = (L.lexeme l).text) ∨
        (L.lexeme k).is "." = true) := by
  simp only [memberNameWithInterface, reads_identText]
  intro hfirst
  refine (ends_withInterfaceArgs hself (by omega) _).bind fun name k hread => ?_
  obtain ⟨hk, ⟨text, rfl⟩, hname⟩ := hread
  -- each round reads one more identifier, and the name is the last one unless a point comes next
  refine (Reads.extend (P := fun a k => Uniform a ∧ ∃ l, j ≤ l ∧ k = l + 1 ∧
    ((L.lexeme l).isIdent = true ∧ (∀ w, (a w).1 = (L.lexeme l).text) ∨
      (L.lexeme k).is "." = true)) ?_ ⟨⟨_, rfl⟩, k - 1, by omega, by omega, ?_⟩).imp
        fun _ _ _ hread => hread.2
  · rintro - l hl ⟨⟨⟨name, interface⟩, rfl⟩, hends⟩
    simp only [reads_is, reads_peekIdent, reads_ite, Bool.and_eq_true]
    refine ⟨fun hpoint => ?_, fun _ => .pure fun _ => .none rfl⟩
    have hident := L.lt_size_of_isIdent hpoint.2
    simp only [reads_discard, reads_advance (Nat.lt_of_succ_lt hident), reads_advance hident,
      token_text]
    refine (ends_withInterfaceArgs hself (by omega) _).bind fun name m hread => ?_
    obtain ⟨hm, ⟨text, rfl⟩, hname⟩ := hread
    refine .pure fun _ => .some ⟨by omega, ⟨_, rfl⟩, m - 1, by omega, by omega, ?_⟩
    refine hname.imp_left ?_
    rintro ⟨rfl, htext⟩
    exact ⟨hpoint.2, fun w => congrFun htext w⟩
  · refine hname.imp_left ?_
    rintro ⟨rfl, htext⟩
    exact ⟨hfirst, fun w => congrFun htext w⟩

/-! ### Types, delegates and constructors -/

/-- A type records the place of the identifier behind its keyword. -/
theorem nameSpanned_typeDecl (hb : b ≤ j + 1) (hj : j < L.size) :
    L.Reads (fun w => typeDecl self (h w)) j fun n _ => ∀ w, (n w).NameSpanned (L.tokens w) := by
  refine (Reads.typeDecl (P := fun _ _ => True) hself hb hj fun hk =>
    (yields_typeContents hself (by omega) _ _).imp fun _ _ _ hread =>
      ⟨hread.1, fun _ => trivial⟩).imp fun n l _ hread w => ?_
  obtain ⟨t, k, hnode, -, hident, hname, hspan⟩ := hread.2 w
  rw [hnode]
  refine .of_single rfl ?_
  rw [hname, hspan]
  exact namedBy_token hident w (Nat.le_refl _) rfl

/-- A delegate records the place of its identifier. -/
theorem nameSpanned_delegateDecl (hb : b ≤ j + 1) :
    L.Reads (fun w => delegateDecl self (h w)) j fun n _ => ∀ w, (n w).NameSpanned (L.tokens w) := by
  simp only [delegateDecl, reads_discard, reads_expect]
  intro _
  refine (yields_type hself (by omega)).bind fun returnType t k hk _ => ?_
  rw [reads_expectIdent]
  intro hident
  refine (allows_optionalTypeParams hself (by omega)).bind fun typeParams ps l hl _ => ?_
  refine (yields_params hself (by omega)).bind fun params qs m hm _ => ?_
  rw [reads_discard]
  refine (allows_constraints hself (by omega)).bind fun _ _ n hn _ => ?_
  simp only [reads_discard, reads_expect, token_text, reads_spanFrom]
  exact fun _ => .pure fun _ w => .of_single rfl (namedBy_token hident w (Nat.le_refl _) rfl)

/-- A constructor records the place of its identifier. -/
theorem nameSpanned_constructorDecl (hb : b ≤ j + 1) :
    L.Reads (fun w => constructorDecl self (h w)) j fun n _ => ∀ w, (n w).NameSpanned (L.tokens w) := by
  simp only [constructorDecl, reads_expectIdent, token_text]
  intro hident
  refine (yields_params hself (by omega)).bind fun params qs k hk _ => ?_
  refine (tests_accept.optionalPart fun _ => reads_chainedCall hself (by omega)).bindPerhaps
    (fun l hl => ?_) ?_
  · refine (yields_body hself (by omega)).bind fun body d m hm _ => ?_
    rw [reads_spanFrom]
    exact .pure fun _ w => .of_single rfl (namedBy_token hident w (Nat.le_refl _) rfl)
  · rintro - l ⟨hl, toBase, args, as, -, rfl⟩
    refine (yields_body hself (by omega)).bind fun body d m hm _ => ?_
    rw [reads_spanFrom]
    exact .pure fun _ w => .of_single rfl (namedBy_token hident w (Nat.le_refl _) rfl)

/-! ### Methods -/

/-- A method records the place that it is given. -/
theorem nameSpanned_methodRest (hb : b ≤ j) (returnType : ω → TypeRef) (name : String)
    (nameSpan : ω → Span) (interface : String)
    (hname : ∀ w, NamedBy (L.tokens w) name (nameSpan w)) :
    L.Reads (fun w => methodRest self (h w) (returnType w) name (nameSpan w) interface) j
      fun m _ => ∀ w, (Node.method (m w)).NameSpanned (L.tokens w) := by
  refine (allows_optionalTypeParams hself (by omega)).bind fun typeParams ps k hk _ => ?_
  refine (yields_params hself (by omega)).bind fun params qs l hl _ => ?_
  refine (allows_constraints hself (by omega)).bind fun constraints cs m hm _ => ?_
  refine (yields_body hself (by omega)).bind fun body d n hn _ => ?_
  rw [reads_spanFrom]
  exact .pure fun _ w => .of_single rfl (hname w)

/-! ### Properties, fields and events -/

/-- An indexer has no name of its own. -/
theorem nameSpanned_indexerDecl (hb : b ≤ j + 1) (t : ω → TypeRef) (explicitName : String) :
    L.Reads (fun w => indexerDecl self (h w) (t w) explicitName) j
      fun n _ => ∀ w, (n w).NameSpanned (L.tokens w) := by
  simp only [indexerDecl, reads_expect]
  intro hthis
  refine (yields_params hself (by omega)).bind fun indexParams qs k hk _ => ?_
  refine (yields_propertyBody hself (by omega)).bind fun body d l hl _ => ?_
  rw [reads_spanFrom]
  have hmem (w : ω) := L.token_mem (w := w) (L.lt_size_of_is hthis)
  exact .pure fun _ w => .inl ⟨L.token w j, hmem w, by simpa using hthis, rfl⟩

/-- A property records the place that it is given. -/
theorem nameSpanned_propertyRest (hb : b ≤ j + 1) (t : ω → TypeRef) (name : String)
    (nameSpan : ω → Span) (hname : ∀ w, NamedBy (L.tokens w) name (nameSpan w)) :
    L.Reads (fun w => propertyRest self (h w) (t w) name (nameSpan w)) j
      fun n _ => ∀ w, (n w).NameSpanned (L.tokens w) := by
  refine (yields_propertyBody hself hb).bind fun body d k hk hbody => ?_
  have hnone (w : ω) : (body w).2.isNone = d.2.isNone := by simp [← hbody.snd.erase w, Layered.erase]
  simp only [hnone]
  refine (Allows.optionalPart (tests_acceptInit _) (Nat.le_succ k) fun _ =>
    (yields_propertyInit hself (by omega)).allows).bind fun init e l hl _ => ?_
  rw [reads_spanFrom]
  exact .pure fun _ w => .of_single rfl (hname w)

/-- A variable records the place of its identifier. -/
theorem namedBy_varDeclarator (hb : b ≤ j + 1) :
    L.Reads (fun _ => varDeclarator self) j fun v k => j < k ∧
      ∀ w, NamedBy (L.tokens w) (v w).name (v w).nameSpan := by
  simp only [varDeclarator, reads_expectIdent]
  intro hident
  refine (Reads.skipIf tests_is (Nat.le_refl _) (fun _ => Reads.skipBalanced)
    fun _ _ h => Nat.le_of_lt h).bind fun _ k hk => ?_
  refine (allows_optionalInit hself (by omega)).bind fun init c l hl hinit => ?_
  rw [reads_spanFrom]
  refine .pure fun _ => ⟨by omega, fun w => ?_⟩
  simp only [token_text]
  exact namedBy_token hident w (Nat.le_refl _) rfl

/-- No field has a point behind the name of its first variable. -/
theorem nameSpanned_fieldRest (hb : b ≤ j + 1) (t : ω → TypeRef) (name : String)
    (nameSpan : ω → Span)
    (hname : (L.lexeme j).is "." = true ∨ ∀ w, NamedBy (L.tokens w) name (nameSpan w)) :
    L.Reads (fun w => fieldRest self (h w) (t w) name (nameSpan w)) j
      fun n _ => ∀ w, (n w).NameSpanned (L.tokens w) := by
  refine hname.elim (fun hpoint => ?_) fun hname => ?_
  · have hnext (s : String) (hs : s ≠ ".") : (L.lexeme j).is s = false := by
      rw [Token.is_eq_of_is hpoint]
      simpa using hs.symm
    refine (reads_accept_none (hnext "=" (by decide))).optionalPart_none.bind ?_
    rintro - k ⟨rfl, -⟩
    rw [reads_spanFrom]
    refine (Reads.repeatWhile_none (reads_accept_none (hnext "," (by decide)))).bind ?_
    rintro - k ⟨rfl, -⟩
    rw [reads_discard, reads_expect]
    exact fun hend => absurd ((hnext ";" (by decide)).symm.trans hend) Bool.false_ne_true
  refine (allows_optionalInit hself hb).bind fun init d l hl _ => ?_
  rw [reads_spanFrom]
  refine (Reads.moreItems (I := fun _ v _ => ∀ w, NamedBy (L.tokens w) (v w).name (v w).nameSpan)
    fun m hm => (namedBy_varDeclarator hself (by omega)).imp fun _ _ _ hread =>
      ⟨Nat.le_of_lt hread.1, hread.2⟩).bind fun more m hread => ?_
  simp only [reads_discard, reads_expect, reads_spanFrom]
  refine fun _ => .pure fun _ w => .inr (.inr (List.forall_mem_cons.mpr ⟨hname w, ?_⟩))
  exact List.forall_mem_map.mpr (hread.2.forall_mem
    (Q := fun w (v : VarDeclarator Node) => NamedBy (L.tokens w) v.name v.nameSpan) w)

/-- An event records the place of the first identifier. With an interface in front, that is
not its name. -/
theorem nameSpanned_eventDecl (hb : b ≤ j + 1) :
    L.Reads (fun w => eventDecl self (h w)) j fun n _ => ∀ w, (n w).NameSpanned (L.tokens w) := by
  simp only [eventDecl, reads_discard, reads_expect]
  intro _
  refine (yields_type hself (by omega)).bind fun t c k hk ht => ?_
  rw [reads_expectIdent]
  intro hident
  -- only if no point follows is the first identifier the name as well
  cases hpoint : (L.lexeme (k + 1)).is "." with
  | true =>
    refine reads_moreSegments.bindUniform fun segments l hl => ?_
    refine (yields_eventBody hself (by omega)).bind fun accessors cs m hm _ => ?_
    rw [reads_spanFrom]
    exact .pure fun _ w => .inr (.inl ⟨_, _, infix_tokens w (L.lt_size_of_is hpoint),
      by simpa using hident, rfl, by simpa using hpoint⟩)
  | false =>
    have hnone : L.Reads (fun _ => moreSegments) (k + 1) fun as l =>
        l = k + 1 ∧ as = fun _ => [] := by
      refine Reads.repeatWhile_none ?_
      rw [reads_iff_bind_pure]
      simp only [bind_assoc, pure_bind, reads_is, reads_peekIdent, hpoint, Bool.false_and]
      exact .pure fun _ => ⟨rfl, rfl⟩
    refine hnone.bind ?_
    rintro - l ⟨rfl, rfl⟩
    refine (yields_eventBody hself (by omega)).bind fun accessors cs m hm _ => ?_
    simp only [reads_spanFrom, token_text]
    exact .pure fun _ w => .of_single rfl (namedBy_token hident w (Nat.le_refl _) rfl)

/-! ### Members -/

/-- A member with a dotted name records the place of all of it, which ends with the last
identifier. -/
theorem nameSpanned_typedMember (hb : b ≤ j + 1) (hij : i ≤ j) (hh : L.Heads i j h) [Nonempty ω] :
    L.Reads (fun w => typedMember self (h w)) j fun n _ => ∀ w, (n w).NameSpanned (L.tokens w) := by
  refine Reads.typedMember (T := fun t k => j < k ∧ ∃ c, L.Laid j k t c)
    (M := fun k name _ l => k < l ∧ ((L.lexeme l).is "." = true ∨
      ∀ w, NamedBy (L.tokens w) name ⟨L.start w k, L.behind w l⟩)) (yields_type hself hb)
    (fun ⟨hk, _⟩ => (ends_memberNameWithInterface hself (by omega)).imp ?_)
    (fun ⟨hk, c, ht⟩ => nameSpanned_of_isNameless (yields_operatorDecl hself (by omega) (by omega)
      (hh.mono (by omega)) (ht.mono hij (Nat.le_refl _))) fun w tokens => ?_)
    (fun ⟨hk, _⟩ => nameSpanned_indexerDecl hself (by omega) _ _)
    (fun ⟨hk, _⟩ ⟨hl, _⟩ => nameSpanned_indexerDecl hself (by omega) _ _)
    (fun ⟨hk, _⟩ ⟨hl, hname⟩ hpoint => nameSpanned_methodRest hself (by omega) _ _ _ _
      (hname.resolve_left (by simp [hpoint])))
    (fun ⟨hk, _⟩ ⟨hl, hname⟩ hpoint => nameSpanned_propertyRest hself (by omega) _ _ _
      (hname.resolve_left (by simp [hpoint])))
    (fun ⟨hk, _⟩ ⟨hl, hname⟩ => nameSpanned_fieldRest hself (by omega) _ _ _ hname)
  · rintro - l - ⟨⟨⟨name, interface⟩, rfl⟩, m, hm, rfl, hends⟩
    refine ⟨name, interface, rfl, by omega, hends.symm.imp_right fun hend w => ?_⟩
    obtain ⟨hident, htext⟩ := hend
    obtain rfl : name = _ := htext w
    exact namedBy_token hident w (L.start_mono w hm) rfl
  · exact .bind fun _ => .bind fun _ => .bind fun _ => .bind fun _ =>
      isNameless_plainMethod _ _ _ _ rfl

/-- Whatever the production for members reads is named where it says. -/
theorem nameSpanned_member (hb : b ≤ j + 1) [Nonempty ω] :
    L.Reads (fun _ => member self) j fun n _ => ∀ w, (n w).NameSpanned (L.tokens w) := by
  refine Reads.member (reads_header hself hb)
    (fun ⟨hk, _⟩ => nameSpanned_delegateDecl hself (by omega))
    (fun ⟨hk, _⟩ hj => nameSpanned_typeDecl hself (by omega) hj)
    (fun ⟨hk, hh⟩ => nameSpanned_of_isNameless (yields_destructorDecl hself (by omega) hk hh)
      fun w tokens => ?_)
    (fun ⟨hk, _⟩ => nameSpanned_eventDecl hself (by omega))
    (fun ⟨hk, hh⟩ hj => nameSpanned_of_isNameless (yields_conversionDecl hself (by omega) hk hh hj)
      fun w tokens => ?_)
    (fun ⟨hk, _⟩ => nameSpanned_constructorDecl hself (by omega))
    (fun ⟨hk, hh⟩ => nameSpanned_typedMember hself (by omega) hk hh)
  · exact .bind fun _ => .bind fun _ => isNameless_plainMethod _ _ _ _ rfl
  · exact .bind fun _ => .bind fun _ => .bind fun _ => .bind fun _ => .bind fun _ =>
      isNameless_plainMethod _ _ _ _ rfl

end

end Layouts

/-! ### The text at a name span -/

/-- The text at a place of a source ends with the given name. -/
def EndsWithName (source : List UInt8) (span : Span) (name : String) : Prop :=
  ∃ before, Text.Utf8.text (span.slice source) = before ++ name

variable {source : List UInt8} {tokens : List Token} {nullable : Bool} {name : String} {span : Span}
  {t : Token}

/-- An identifier is written by bytes that do not continue what stands in front of them. -/
theorem exists_slice_of_isIdent (h : Lexer.StandsApart source t) (ht : t.isIdent = true) :
    ∃ d rest, t.span.slice source = d :: rest ∧ Text.Utf8.isContinuation d = false := by
  obtain ⟨b, ws, lead, -, hslice, hpiece⟩ := h.reads
  have hread := hpiece true [] .nil
  rw [List.append_nil, show t.kind = .ident by simpa [Token.isIdent] using ht] at hread
  have hident := Lexer.identifier?_of_piece hread
  cases hbytes : (b :: ws).drop lead with
  | nil =>
    rw [hbytes] at hident
    cases hident
  | cons d rest =>
    rw [hbytes] at hident
    obtain ⟨c, k, hnext, -⟩ := Lexer.identifier?_cons hident
    exact ⟨d, rest, hslice.trans hbytes, Text.Utf8.isContinuation_of_next hnext⟩

/-- The text at the place of a name ends with the name. -/
theorem endsWithName_of_namedBy (h : lex source = .ok (tokens, nullable))
    (hname : NamedBy tokens.dropLast name span) : EndsWithName source span name := by
  obtain ⟨ts, last, rfl, -, hts⟩ := Lexer.standsApart_lex h
  obtain ⟨t, ht, hident, rfl, hstart, hstop⟩ := hname
  have hapart := hts t (by simpa using ht)
  obtain ⟨d, rest, hslice, hd⟩ := exists_slice_of_isIdent hapart hident
  have hlength : 0 < (t.span.slice source).length := by simp [hslice]
  simp only [Span.slice, Span.length, List.length_take, List.length_drop] at hlength
  -- the text in front of the identifier ends where a character ends
  let front := (source.drop span.start).take (t.span.start - span.start)
  have hfront : span.start + front.length = t.span.start := by
    simp only [front, List.length_take, List.length_drop]
    omega
  have hsplit : Span.slice ⟨span.start, span.stop⟩ source =
      front ++ Span.slice ⟨span.start + front.length, span.stop⟩ source :=
    Lexer.slice_append (List.take_append_drop _ _).symm (by rw [hfront]; omega)
  rw [hfront, hstop] at hsplit
  have hspan : span.slice source = front ++ d :: rest := by
    rw [← hslice, ← hsplit, ← hstop]
  exact ⟨Text.Utf8.text front, by rw [hspan, Text.Utf8.text_append hd, hapart.text_eq, hslice]⟩

/-! ### Declarations and the span table -/

/-- What was read by a run for members or namespaces records where its name stands. -/
theorem Layouts.Traced.nameSpanned {hlex : lex source = .ok (tokens, nullable)} {n : Node}
    (h : (Layouts.ofLex hlex).Traced () n) : n.NameSpanned tokens.dropLast := by
  have hread (hrun : (Layouts.ofLex hlex).ReadBy () member n) : n.NameSpanned tokens.dropLast := by
    obtain ⟨-, x, -, -, hnamed, rfl⟩ := hrun.elim fun hself hb => Layouts.nameSpanned_member hself hb
    exact hnamed ()
  cases n with
  | typeDecl | delegate | constructor | method | property | event | field => exact hread (h rfl)
  | _ => exact .inr (.inr (List.forall_mem_nil _))

namespace Node

/-- More tokens do not give a name to what has none. -/
theorem IsNameless.mono {ts us : List Token} {n : Node} (h : n.IsNameless ts) (hts : ts ⊆ us) :
    n.IsNameless us := by
  cases n with
  | method => exact h
  | property =>
    obtain ⟨t, ht, hthis⟩ := h
    exact ⟨t, hts ht, hthis⟩
  | _ => exact h.elim

theorem IsExplicitEvent.mono {ts us : List Token} {n : Node} (h : n.IsExplicitEvent ts)
    (hts : ts <:+: us) : n.IsExplicitEvent us := by
  cases n with
  | event =>
    obtain ⟨t, point, htp, hevent⟩ := h
    exact ⟨t, point, htp.trans hts, hevent⟩
  | _ => exact h.elim

end Node

theorem exists_intercalate_concat (sep last : String) (front : List String) :
    ∃ outer, sep.intercalate (front ++ [last]) = outer ++ last := by
  induction front with
  | nil => exact ⟨"", by simp⟩
  | cons s front ih =>
    obtain ⟨outer, houter⟩ := ih
    obtain ⟨s', front', hfront⟩ : ∃ s' front', front ++ [last] = s' :: front' :=
      List.exists_cons_of_ne_nil (by simp)
    rw [List.cons_append, hfront, String.intercalate_cons_cons, ← hfront, houter]
    exact ⟨s ++ sep ++ outer, by simp only [String.append_assoc]⟩

/-- The full name of a type ends with its name. -/
theorem exists_typeName_eq (p : DeclPath) (t : TypeDecl Node) :
    ∃ outer, (p.withType t).typeName = outer ++ t.name := by
  rw [DeclPath.typeName, DeclPath.withType, List.map_append, List.map_singleton,
    ← List.append_assoc]
  exact exists_intercalate_concat _ _ _

/-- A dotted name ends with its last part. -/
theorem exists_dotted_eq (outer name : String) :
    ∃ owner, DeclPath.dotted outer name = owner ++ name := by
  rw [DeclPath.dotted]
  split
  · exact ⟨"", by simp⟩
  · exact ⟨outer ++ ".", rfl⟩

/-- The key of a declaration that is no namespace ends with one of the names it introduces. -/
theorem exists_naming_of_mem_names {u : CompilationUnit Node} {d : Declared}
    (hd : d ∈ u.declarations) {e : String × Span} (he : e ∈ d.names)
    (hnamespace : ∀ ns, d.node ≠ .namespaceDecl ns) :
    ∃ p ∈ d.node.namings, p.2 = e.2 ∧ ∃ owner, e.1 = owner ++ p.1 := by
  -- A declaration is met at a node, whose kind tells under which names it is listed.
  obtain ⟨v, -, -, rfl⟩ := CompilationUnit.mem_declarations_iff.mp hd
  obtain ⟨address, path, n⟩ := v
  have hmember (kind name : String) : ∃ owner,
      kind ++ Declared.names.member ⟨path.enter n, address, n⟩ name = owner ++ name :=
    ⟨kind ++ ((path.enter n).typeName ++ "::"), by simp [Declared.names.member, String.append_assoc]⟩
  cases n with
  | typeDecl t =>
    obtain ⟨outer, houter⟩ := exists_typeName_eq path t
    obtain rfl := List.mem_singleton.mp he
    refine ⟨_, List.mem_singleton_self _, rfl, "class:" ++ outer, ?_⟩
    rw [String.append_assoc, ← houter]
    rfl
  | delegate g =>
    obtain ⟨owner, howner⟩ := exists_dotted_eq path.typeName g.name
    obtain rfl := List.mem_singleton.mp he
    refine ⟨_, List.mem_singleton_self _, rfl, "delegate:" ++ owner, ?_⟩
    rw [String.append_assoc, ← howner]
    rfl
  | method | constructor | property | event =>
    obtain rfl := List.mem_singleton.mp he
    exact ⟨_, List.mem_singleton_self _, rfl, hmember _ _⟩
  | field f =>
    obtain ⟨v, hv, rfl⟩ := List.mem_map.mp he
    exact ⟨_, List.mem_map_of_mem hv, rfl, hmember _ _⟩
  | namespaceDecl ns => exact absurd rfl (hnamespace ns)
  | _ => cases he

/-- Wherever a type, a delegate, a constructor, a property, a field or a method is declared, the
text at its name span ends with its name: what stands in front is an interface that a member
implements. Operators, destructors and indexers have no such name. Of an event this holds as well,
unless an interface stands in front of its name: its name span is then that of the first identifier
only. So each entry of the span table under the key of such a declaration is the place of a text
that ends with the name in its key. -/
theorem text_at_name_span_ends_with_name {u : CompilationUnit Node} (h : parse source = .ok u) :
    ∃ tokens nullable, lex source = .ok (tokens, nullable) ∧
      (∀ d ∈ u.declarations, ¬d.node.IsNameless tokens → ¬d.node.IsExplicitEvent tokens →
        ∀ p ∈ d.node.namings, EndsWithName source p.2 p.1) ∧
      ∀ e ∈ spanTable u, ∃ d ∈ u.declarations, e ∈ d.names ∧
        ((∀ ns, d.node ≠ .namespaceDecl ns) → ¬d.node.IsNameless tokens →
          ¬d.node.IsExplicitEvent tokens → ∃ name, (name, e.2) ∈ d.node.namings ∧
            (∃ owner, e.1 = owner ++ name) ∧ EndsWithName source e.2 name) := by
  obtain ⟨tokens, nullable, hlex, k, hgrows⟩ := grows_of_parse h
  -- The file-scoped namespace names nothing, and all else is read by a run of its own.
  have hends : ∀ d ∈ u.declarations, ¬d.node.IsNameless tokens → ¬d.node.IsExplicitEvent tokens →
      ∀ p ∈ d.node.namings, EndsWithName source p.2 p.1 := by
    intro d hd hnameless hexplicit p hp
    have hnamed : d.node.NameSpanned tokens.dropLast := by
      rcases hgrows.traced_of_mem hd with htraced | ⟨ns, -, hnode⟩
      · exact htraced.nameSpanned
      · exact .inr (.inr (by simp [hnode, Node.namings]))
    obtain hd | hd | hnamed := hnamed
    · exact absurd (hd.mono (List.dropLast_subset tokens)) hnameless
    · exact absurd (hd.mono (List.dropLast_prefix tokens).isInfix) hexplicit
    · exact endsWithName_of_namedBy hlex (hnamed p hp)
  refine ⟨tokens, nullable, hlex, hends, fun e he => ?_⟩
  obtain ⟨d, hd, he⟩ := List.mem_flatMap.mp (List.mem_of_find?_eq_some (mem_firstOfKey_iff.mp he))
  refine ⟨d, hd, he, fun hnamespace hnameless hexplicit => ?_⟩
  obtain ⟨⟨name, span⟩, hp, rfl, hkey⟩ := exists_naming_of_mem_names hd he hnamespace
  exact ⟨name, hp, hkey, hends d hd hnameless hexplicit _ hp⟩

/-- A type with two fields and a method of an interface. -/
def explicitMethodText : List UInt8 :=
  "class C\x7bint a,b;void I.M()\x7b\x7d\x7d".toList.map Lexer.ascii

theorem explicitMethodText_spans : (parse explicitMethodText).toOption.any (fun u =>
    (u.declarations.any fun d => match d.node with
      | .method m => m.name == "M" && m.nameSpan == ⟨21, 24⟩ && !m.isOperator && !m.isDestructor
      | _ => false) &&
    spanTable u == [("class:C", ⟨6, 7⟩), ("field:C::a", ⟨12, 13⟩), ("field:C::b", ⟨14, 15⟩),
      ("method:C::M", ⟨21, 24⟩)]) = true := by
  rw [show explicitMethodText = _ from Lexer.ascii_ofList _]
  decide +kernel

/-- The place of the method's name holds the interface as well, and ends with the name. -/
theorem text_at_name_span_of_explicit_method : ∃ u, parse explicitMethodText = .ok u ∧
    ("method:C::M", ⟨21, 24⟩) ∈ spanTable u ∧
    ∃ d ∈ u.declarations, ∃ m, d.node = .method m ∧ m.name = "M" ∧ m.nameSpan = ⟨21, 24⟩ ∧
      EndsWithName explicitMethodText m.nameSpan m.name := by
  obtain ⟨u, hparse, hfacts⟩ := exists_parse_of_any explicitMethodText_spans
  obtain ⟨hmethod, htable⟩ := Bool.and_eq_true_iff.mp hfacts
  obtain ⟨tokens, -, -, hends, -⟩ := text_at_name_span_ends_with_name hparse
  refine ⟨u, hparse, by rw [eq_of_beq htable]; decide, ?_⟩
  obtain ⟨d, hd, hmethod⟩ := List.any_eq_true.mp hmethod
  split at hmethod
  · next m hm =>
    simp only [Bool.and_eq_true, beq_iff_eq, Bool.not_eq_true'] at hmethod
    obtain ⟨⟨⟨hname, hspan⟩, hoperator⟩, hdestructor⟩ := hmethod
    have hnamed : ¬d.node.IsNameless tokens := by
      simp [hm, Node.IsNameless, hoperator, hdestructor]
    have hexplicit : ¬d.node.IsExplicitEvent tokens := by simp [hm, Node.IsExplicitEvent]
    have hends := hends d hd hnamed hexplicit (m.name, m.nameSpan) (by simp [hm, Node.namings])
    exact ⟨d, hd, m, hm, hname, hspan, hends⟩
  · cases hmethod

/-- A type with an event of an interface. -/
def explicitEventText : List UInt8 :=
  "class C\x7bevent E I.F\x7badd\x7b\x7dremove\x7b\x7d\x7d\x7d".toList.map Lexer.ascii

theorem explicitEventText_spans : (parse explicitEventText).toOption.any (fun u =>
    (u.declarations.any fun d => match d.node with
      | .event e => e.name == "F" && e.nameSpan == ⟨16, 17⟩
      | _ => false) &&
    spanTable u == [("class:C", ⟨6, 7⟩), ("event:C::F", ⟨16, 17⟩)]) = true := by
  rw [show explicitEventText = _ from Lexer.ascii_ofList _]
  decide +kernel

/-- The name span of the event is that of the interface, so the entry of the span table leads
there. -/
theorem name_span_of_explicit_event : ∃ u, parse explicitEventText = .ok u ∧
    (∃ d ∈ u.declarations, ∃ e, d.node = .event e ∧ e.name = "F" ∧
      ¬EndsWithName explicitEventText e.nameSpan e.name) ∧
    ∃ span, ("event:C::F", span) ∈ spanTable u ∧ ¬EndsWithName explicitEventText span "F" := by
  have htext : Text.Utf8.text (Span.slice ⟨16, 17⟩ explicitEventText) = "I" := by decide +kernel
  have hends : ¬EndsWithName explicitEventText ⟨16, 17⟩ "F" := by
    rintro ⟨before, hbefore⟩
    rw [htext] at hbefore
    simpa using congrArg (·.toList.getLast?) hbefore
  obtain ⟨u, hparse, hfacts⟩ := exists_parse_of_any explicitEventText_spans
  obtain ⟨hevent, htable⟩ := Bool.and_eq_true_iff.mp hfacts
  refine ⟨u, hparse, ?_, ⟨16, 17⟩, ?_, hends⟩
  · obtain ⟨d, hd, hevent⟩ := List.any_eq_true.mp hevent
    split at hevent
    · next e he =>
      rw [Bool.and_eq_true, beq_iff_eq, beq_iff_eq] at hevent
      exact ⟨d, hd, e, he, hevent.1, by rwa [hevent.1, hevent.2]⟩
    · cases hevent
  · rw [eq_of_beq htable]
    decide

end CSharpAudit
