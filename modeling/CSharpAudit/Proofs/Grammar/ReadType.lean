import CSharpAudit.Proofs.Grammar.MarkedType

/-!
# What types are read from

A production for types uses tokens that write the type it yields, whatever it meets. So each
type in a syntax tree was written somewhere, and is no more than what can be written.

## Main definitions

* `Grammar.Uses` — a parser uses tokens that its value tells about

## Main results

* `Grammar.Uses.bind` — one parser behind another
* `Grammar.Uses.separated`, `Grammar.Uses.extend` — loops
* `Grammar.uses_type` — a type was read from tokens that write it
-/

namespace CSharpAudit

open Grammar

/-! ### What is written -/

section Written

variable {α β : Type} {ts : List Token}

/-- A list may be told by what its items stand for. -/
theorem SeparatedBy.map {W : List Token → β → Prop} {e : α → β} {as : List α}
    (h : SeparatedBy (fun ts a => W ts (e a)) ts as) : SeparatedBy W ts (as.map e) := by
  induction h with
  | one h => exact .one h
  | cons h hcomma _ ih => exact .cons h hcomma ih

/-- Between empty items there are commas only. -/
theorem SeparatedBy.commas {as : List α} (h : SeparatedBy (fun ts _ => ts = []) ts as) :
    ∀ t ∈ ts, t.is "," = true := by
  induction h with
  | one h =>
    subst h
    exact fun _ ht => absurd ht List.not_mem_nil
  | cons h hcomma _ ih =>
    subst h
    exact List.forall_mem_cons.mpr ⟨hcomma, ih⟩

/-- One more segment behind a name. -/
theorem WritesSegments.concat {W : List Token → TypeRef → Prop} {us : List Token} {point i : Token}
    {args args' args'' : List TypeRef} {names : List String}
    (h : WritesSegments W args ts names args')
    (hpoint : point.is "." = true) (hi : i.isIdent = true) (hus : WritesArgs W args' us args'') :
    WritesSegments W args (ts ++ point :: i :: us) (names ++ [i.text]) args'' := by
  induction h with
  | nil => simpa using WritesSegments.cons hpoint hi hus .nil
  | cons hpoint' hi' hus' _ ih => simpa using WritesSegments.cons hpoint' hi' hus' (ih hus)

/-- One more mark behind others. -/
theorem WritesMarks.concat {us : List Token} {ms : List TypeMark} {m : TypeMark}
    (h : WritesMarks ts ms) (hus : m.Writes us) : WritesMarks (ts ++ us) (ms ++ [m]) := by
  induction h with
  | nil => simpa using WritesMarks.cons hus .nil
  | cons hvs _ ih => simpa using WritesMarks.cons hvs ih

end Written

namespace Grammar

variable {α β : Type} {x : Input} {p : Parser α} {f : α → Parser β} {c : Cursor}
  {Q : List Token → α → Prop} {R : List Token → β → Prop} {t : Token} {ts : List Token} {s : String}
  {k n : Nat}

/-- If a parser succeeds, it has used some tokens, and these are tied to its value. -/
def Uses (x : Input) (p : Parser α) (c : Cursor) (Q : List Token → α → Prop) : Prop :=
  ∀ a c', p x c = .ok (a, c') → ∃ ts, c.rest = ts ++ c'.rest ∧ Q ts a

/-- What is known of tokens and value may be weakened. -/
theorem Uses.imp {Q' : List Token → α → Prop} (h : Uses x p c Q)
    (hQ : ∀ ts a, Q ts a → Q' ts a) : Uses x p c Q' := by
  intro a c' hrun
  obtain ⟨ts, hts, ha⟩ := h a c' hrun
  exact ⟨ts, hts, hQ ts a ha⟩

/-- A parser that reads nothing uses no tokens. -/
theorem Uses.pure {a : α} (h : Q [] a) : Uses x (Pure.pure a) c Q := by
  intro b c' hrun
  cases hrun
  exact ⟨[], rfl, h⟩

/-- Two parsers in a row use the tokens of both. -/
theorem Uses.bind (hp : Uses x p c Q)
    (hf : ∀ ts a c', Q ts a → Uses x (f a) c' fun us b => R (ts ++ us) b) :
    Uses x (p >>= f) c R := by
  intro b c' hrun
  obtain ⟨a, c₁, ha, hb⟩ := run_bind_eq_ok.mp hrun
  obtain ⟨ts, hts, hQ⟩ := hp a c₁ ha
  obtain ⟨us, hus, hR⟩ := hf ts a c₁ hQ b c' hb
  exact ⟨ts ++ us, by rw [hts, hus, List.append_assoc], hR⟩

theorem Uses.discard {f : Unit → Parser β} (h : Uses x (p >>= fun _ => f ()) c R) :
    Uses x (Functor.discard p >>= f) c R := by
  rwa [Layouts.discard_bind]

/-- Of a choice, both sides may be taken. -/
theorem Uses.ite {b : Prop} [Decidable b] {q : Parser α} (hp : b → Uses x p c Q)
    (hq : ¬b → Uses x q c Q) : Uses x (if b then p else q) c Q := by
  split
  · exact hp ‹_›
  · exact hq ‹_›

/-- A parser that fails uses nothing. -/
theorem Uses.fail {cause : SyntaxError.Cause} : Uses x (fail cause : Parser α) c Q := by
  intro a c' hrun
  cases hrun

theorem Uses.fail_bind {cause : SyntaxError.Cause} :
    Uses x (Grammar.fail cause >>= f) c R := by
  intro b c' hrun
  cases hrun

section Tokens

variable (heof : x.eof.kind = .eof)
include heof

/-- A token of any kind but the last one stands among those left. -/
theorem exists_cons_of_ahead {rest : List Token} (h : (ahead x rest 0).kind ≠ .eof) :
    ∃ t ts, rest = t :: ts := by
  cases rest with
  | nil => exact absurd heof h
  | cons t ts => exact ⟨t, ts, rfl⟩

omit heof in
theorem kind_ne_eof_of_is (h : t.is s = true) : t.kind ≠ .eof := by
  intro hk
  simp [Token.is, hk] at h

/-- What is at the current place is consumed. -/
theorem Uses.advance (hk : (ahead x c.rest 0).kind ≠ .eof) {f : Token → Parser β}
    (hf : ∀ c', Uses x (f (ahead x c.rest 0)) c' fun us b => R (ahead x c.rest 0 :: us) b) :
    Uses x (Grammar.advance >>= f) c R := by
  obtain ⟨rest, k⟩ := c
  obtain ⟨t, ts, rfl⟩ := exists_cons_of_ahead heof hk
  intro b c' hrun
  rw [run_advance_bind] at hrun
  obtain ⟨us, hus, hb⟩ := hf _ b c' hrun
  exact ⟨t :: us, congrArg (t :: ·) hus, hb⟩

/-- A token that has to be there is used. -/
theorem Uses.expect {f : Token → Parser β}
    (hf : ∀ t c', t.is s = true → Uses x (f t) c' fun us b => R (t :: us) b) :
    Uses x (Grammar.expect s >>= f) c R := by
  rw [Grammar.expect, bind_assoc]
  intro b c' hrun
  rw [run_is_bind, Layouts.ite_bind, run_ite] at hrun
  split at hrun
  · exact Uses.advance heof (kind_ne_eof_of_is ‹_›) (fun c' => hf _ c' ‹_›) b c' hrun
  · cases hrun

/-- An optional token is used if it is there. -/
theorem Uses.accept {f : Bool → Parser β}
    (htrue : ∀ t c', t.is s = true → Uses x (f true) c' fun us b => R (t :: us) b)
    (hfalse : Uses x (f false) c R) : Uses x (Grammar.accept s >>= f) c R := by
  intro b c' hrun
  obtain ⟨a, c₁, ha, hrest⟩ := run_bind_eq_ok.mp hrun
  rcases run_accept_eq_ok heof ha with ⟨rfl, t, ht, his⟩ | ⟨rfl, rfl⟩
  · obtain ⟨us, hus, hb⟩ := htrue t c₁ his b c' hrest
    exact ⟨t :: us, by rw [ht, hus]; rfl, hb⟩
  · exact hfalse b c' hrest

end Tokens

theorem Uses.is {f : Bool → Parser β} (h : Uses x (f ((ahead x c.rest 0).is s)) c R) :
    Uses x (Grammar.is s >>= f) c R := h

theorem Uses.peekIs {f : Bool → Parser β} (h : Uses x (f ((ahead x c.rest n).is s)) c R) :
    Uses x (Grammar.peekIs n s >>= f) c R := h

theorem Uses.tokensLeft {f : Nat → Parser β} (h : Uses x (f c.rest.length) c R) :
    Uses x (Grammar.tokensLeft >>= f) c R := h

theorem Uses.nextRound (h : Uses x p c Q) : Uses x (Grammar.nextRound n p) c Q := by
  intro a c' hrun
  rw [run_nextRound] at hrun
  split at hrun
  · exact h a c' hrun
  · cases hrun

/-! ### Loops -/

/-- What is known of the tokens read so far and of a value, and is kept by each round of a loop, is
known of all the tokens and of the result. -/
theorem Uses.extend {step : α → Parser (Option α)} {a : α} (hstart : Q [] a)
    (hstep : ∀ ts a c, Q ts a → Uses x (step a) c fun us o =>
      ∀ b, o = some b → Q (ts ++ us) b)
    (hstop : ∀ a c c', step a x c = .ok (none, c') → c' = c) :
    Uses x (Grammar.extend step a) c Q := by
  intro b c' hrun
  refine run_extend_rec hrun (P := fun a c' => ∃ ts, c.rest = ts ++ c'.rest ∧ Q ts a)
    ⟨[], rfl, hstart⟩ ?_ ?_
  · rintro a c₁ b c₂ ⟨ts, hts, ha⟩ hrun
    obtain ⟨us, hus, hb⟩ := hstep ts a c₁ ha _ c₂ hrun
    exact ⟨ts ++ us, by rw [hts, hus, List.append_assoc], hb b rfl⟩
  · rintro a c₁ c₂ ih hrun
    rwa [hstop a c₁ c₂ hrun]

section Items

variable {item : Parser α} (heof : x.eof.kind = .eof) (hitem : ∀ c, Uses x item c Q)
include heof hitem

/-- Whatever stands before further items, all of them make up a list. -/
theorem Uses.repeatFuel (fuel : Nat) :
    Uses x (Grammar.repeatFuel (Grammar.accept ",") item fuel) c fun us as =>
      ∀ ts a, Q ts a → SeparatedBy Q (ts ++ us) (a :: as) := by
  induction fuel generalizing c with
  | zero => exact .fail
  | succ fuel ih =>
    refine .tokensLeft <| Uses.accept heof (fun comma c₁ hcomma => ?_) (.pure ?_)
    · refine (hitem c₁).bind fun us a c₂ ha => (Uses.nextRound ih).bind fun vs as c₃ has => ?_
      refine .pure fun ts b hb => ?_
      simpa using SeparatedBy.cons hb hcomma (has us a ha)
    · intro ts a ha
      simpa using SeparatedBy.one ha

/-- Each further item has a comma in front of it. -/
theorem Uses.moreItems : Uses x (Grammar.moreItems item) c fun us as =>
    ∀ ts a, Q ts a → SeparatedBy Q (ts ++ us) (a :: as) := by
  intro as c' hrun
  rw [Grammar.moreItems, repeatWhile, run_bound_bind] at hrun
  exact Uses.repeatFuel heof hitem _ as c' hrun

/-- A list uses its items and the commas between them. -/
theorem Uses.separated : Uses x (Grammar.separated item) c (SeparatedBy Q) := by
  refine (hitem c).bind fun ts a c₁ ha => ?_
  refine (Uses.moreItems heof hitem).bind fun us as c₂ has => .pure ?_
  simpa using has ts a ha

end Items

/-! ### Types -/

section Types

variable {self : Rules} (heof : x.eof.kind = .eof)
  (hself : ∀ c, Uses x self.type c fun ts t => WritesType ts t.erase)
include heof hself

omit heof in
/-- A type argument may be omitted. -/
theorem uses_typeArg (c : Cursor) :
    Uses x (typeArg self) c fun ts t => WritesArg WritesType ts t.erase := by
  refine .is <| .is <| .ite (fun _ => .pure .omitted) fun _ => ?_
  exact (hself c).imp fun _ _ => .type

/-- A list of type arguments uses its angle brackets, too. -/
theorem uses_typeArgs (before : List TypeRef) :
    Uses x (typeArgs self) c fun ts args =>
      WritesArgs WritesType before ts (args.map TypeRef.erase) := by
  refine .discard <| .expect heof fun o c₁ ho => ?_
  refine (Uses.separated heof (uses_typeArg hself)).bind fun ts args c₂ hargs => ?_
  exact .discard <| .expect heof fun b c₃ hb => .pure <| .some ho hargs.map hb

/-- Without an angle bracket, the arguments read before stay. -/
theorem uses_replaceArgs {args : List TypeRef} :
    Uses x (replaceArgs self args) c fun ts args' =>
      WritesArgs WritesType (args.map TypeRef.erase) ts (args'.map TypeRef.erase) :=
  .is <| .ite (fun _ => uses_typeArgs heof hself _) fun _ => .pure .none

omit hself in
/-- An alias in front of the first segment is used and forgotten. -/
theorem uses_firstSegment : Uses x firstSegment c WritesFirst := by
  intro first c' hrun
  exact run_firstSegment_eq_ok heof hrun

/-- A name uses its segments with all their arguments, of which the last ones count. -/
theorem uses_namedType :
    Uses x (namedType self) c fun ts t => WritesUnmarked WritesType ts t.erase := by
  rw [namedType_eq]
  refine (uses_firstSegment heof).bind fun fs first c₁ hfirst => ?_
  refine (uses_replaceArgs heof hself).bind fun us args c₂ hargs => ?_
  -- The segments so far, with the arguments that were read last.
  refine Uses.bind (Q := fun ts a => ∃ names, a.1.reverse = first :: names ∧
    WritesSegments WritesType (args.map TypeRef.erase) ts names (a.2.map TypeRef.erase))
    (Uses.extend ⟨[], rfl, .nil⟩ ?_ ?_) ?_
  · rintro ts ⟨segments, args'⟩ ⟨rest, k⟩ ⟨names, hnames, hts⟩ o c' hrun
    rw [segmentStep, run_is_bind, run_peekIdent_bind, run_ite] at hrun
    split at hrun
    · obtain ⟨point, i, us', rfl, hpoint, hi⟩ := ahead_of_point heof ‹_›
      rw [run_discard_bind, run_advance_bind, run_advance_bind, run_bind_eq_ok] at hrun
      obtain ⟨args'', c₄, hargs', hrun⟩ := hrun
      cases hrun
      obtain ⟨vs, hvs, hargs'⟩ := uses_replaceArgs heof hself _ _ hargs'
      refine ⟨point :: i :: vs, congrArg (point :: i :: ·) hvs, ?_⟩
      rintro _ ⟨⟩
      exact ⟨names ++ [i.text], by simp [hnames], hts.concat hpoint hi hargs'⟩
    · cases hrun
      exact ⟨[], rfl, fun b hb => by cases hb⟩
  · rintro ⟨segments, args'⟩ ⟨rest, k⟩ c' hrun
    rw [segmentStep, run_is_bind, run_peekIdent_bind, run_ite] at hrun
    split at hrun
    · obtain ⟨a, c₁, -, hrun⟩ := run_bind_eq_ok.mp hrun
      obtain ⟨a, c₂, -, hrun⟩ := run_bind_eq_ok.mp hrun
      obtain ⟨a, c₃, -, hrun⟩ := run_bind_eq_ok.mp hrun
      cases hrun
    · cases hrun
      rfl
  · rintro ts ⟨segments, args'⟩ c' ⟨names, hnames, hts⟩
    refine .pure ?_
    dsimp only at hnames
    rw [TypeRef.erase_mk, hnames, List.append_nil]
    exact .named hfirst hargs hts

/-- The element of a tuple may have a name. -/
theorem uses_tupleElement (c : Cursor) :
    Uses x (tupleElement self) c fun ts a => WritesElement WritesType ts (a.1.erase, a.2) := by
  refine (hself c).bind fun ts t c₁ ht => ?_
  intro a c' hrun
  obtain ⟨rest, k⟩ := c₁
  obtain ⟨name, c₂, hname, hrun⟩ := run_bind_eq_ok.mp hrun
  cases hrun
  rw [optionalIdent, run_isIdent_bind, run_ite] at hname
  split at hname
  · have hident : (ahead x rest 0).isIdent = true := ‹_›
    have hkind : (ahead x rest 0).kind ≠ .eof := fun hk => by simp [Token.isIdent, hk] at hident
    obtain ⟨i, us, rfl⟩ := exists_cons_of_ahead heof hkind
    rw [run_advance_bind] at hname
    cases hname
    exact ⟨[i], rfl, .named ht hident⟩
  · cases hname
    exact ⟨[], rfl, by simpa using WritesElement.unnamed ht⟩

/-- A tuple uses its parentheses, too. -/
theorem uses_tupleType :
    Uses x (tupleType self) c fun ts t => WritesUnmarked WritesType ts t.erase := by
  refine .discard <| .expect heof fun o c₁ ho => ?_
  refine (Uses.separated heof (uses_tupleElement heof hself)).bind
    fun ts elements c₂ hts => .discard <| .expect heof fun b c₃ hb => ?_
  refine .ite (fun _ => .fail_bind) fun htwo => .pure ?_
  have hlength : 2 ≤ (elements.map fun a => (a.1.erase, a.2)).length := by
    rw [List.length_map]
    exact Nat.not_lt.mp htwo
  have htuple := WritesUnmarked.tuple ho (SeparatedBy.map hts) hlength hb
  rw [TypeRef.erase_mk, List.map_map]
  simpa [Function.comp_def] using htuple

/-- A type without marks is a predefined word, a name or a tuple. -/
theorem uses_unmarkedType :
    Uses x (unmarkedType self) c fun ts t => WritesUnmarked WritesType ts t.erase := by
  intro t c' hrun
  rw [unmarkedType, run_current_bind, run_ite, run_ite, run_ite] at hrun
  split at hrun
  · exact uses_tupleType heof hself t c' hrun
  split at hrun
  · obtain ⟨rest, k⟩ := c
    have hkind : (ahead x rest 0).kind ≠ .eof := fun hk => by simp_all [Token.isPredefinedType]
    obtain ⟨u, us, rfl⟩ := exists_cons_of_ahead heof hkind
    rw [predefinedType, run_advance_bind] at hrun
    cases hrun
    exact ⟨[u], rfl, .predefined ‹_›⟩
  split at hrun
  · exact uses_namedType heof hself t c' hrun
  · cases hrun

omit hself in
/-- A mark is read from tokens that write it. -/
theorem uses_typeMark {t : TypeRef} (c : Cursor) :
    Uses x (typeMark t) c fun ts o => ∀ t', o = some t' →
      ∃ m : TypeMark, m.Writes ts ∧ t' = m.on t := by
  refine .is <| .peekIs <| .peekIs <| .ite (fun h => ?_) fun _ =>
    .is <| .ite (fun h => ?_) fun _ => ?_
  -- a question mark, a star, or brackets with commas between them
  · have hmark : (ahead x c.rest 0).is "?" = true := by
      rw [Bool.and_eq_true, Bool.and_eq_true] at h
      exact h.1.1
    refine .discard <| .advance heof (kind_ne_eof_of_is hmark) fun c₁ => .pure ?_
    rintro _ ⟨⟩
    exact ⟨.nullable, .nullable hmark, rfl⟩
  · refine .discard <| .advance heof (kind_ne_eof_of_is h) fun c₁ => .pure ?_
    rintro _ ⟨⟩
    exact ⟨.pointer, .pointer h, rfl⟩
  · rw [atArrayMark, bind_assoc]
    refine .is ?_
    rw [bind_assoc]
    refine .peekIs ?_
    rw [bind_assoc]
    refine .peekIs <| .ite (fun h => ?_) fun _ => .pure fun _ h => nomatch h
    have hbracket := (Bool.and_eq_true_iff.mp h).1
    rw [arrayMark, bind_assoc]
    refine .discard <| .advance heof (kind_ne_eof_of_is hbracket) fun c₁ => ?_
    rw [bind_assoc]
    -- The commas are counted, and their tokens are not kept.
    have hcommas := Uses.repeatFuel (Q := fun ts (_ : Unit) => ts = []) heof
      (fun _ => Uses.pure (a := ()) rfl) (c₁.rest.length + 1) (c := c₁)
    refine .discard <| Uses.bind hcommas fun cs as c₂ hcs => ?_
    refine .discard <| .expect heof fun b c₃ hb => .pure ?_
    rintro _ ⟨⟩
    exact ⟨.array, by simpa using TypeMark.Writes.array cs hbracket (hcs [] () rfl).commas hb, rfl⟩

omit heof hself in
/-- Where no mark stands, nothing is consumed. -/
theorem run_typeMark_none {t : TypeRef} {c c' : Cursor} (h : typeMark t x c = .ok (none, c')) :
    c' = c := by
  rcases run_typeMark_eq_ok h with ⟨-, h⟩ | ⟨t', h, -⟩
  · exact h
  · cases h

/-- A type uses the tokens of its marks, too. -/
theorem uses_type_of (c : Cursor) :
    Uses x (type self) c fun ts t => WritesType ts t.erase := by
  show Uses x (do
    let marked ← extend typeMark (← unmarkedType self)
    return { marked with span := ← spanFrom (ahead x c.rest 0).span.start }) c _
  refine (uses_unmarkedType heof hself).bind fun us t c₁ ht => ?_
  refine Uses.bind (Q := fun ts t' => ∃ ms, WritesMarks ts ms ∧ t' = ms.foldl TypeMark.on t)
    (Uses.extend ⟨[], .nil, rfl⟩ ?_ fun _ _ _ => run_typeMark_none) ?_
  · rintro ts t' c ⟨ms, hms, rfl⟩
    refine (uses_typeMark heof c).imp fun us o ho t' hsome => ?_
    obtain ⟨m, hm, rfl⟩ := ho t' hsome
    exact ⟨ms ++ [m], hms.concat hm, by rw [List.foldl_append]; rfl⟩
  · rintro ts _ c₂ ⟨ms, hms, rfl⟩ t' c' hrun
    cases hrun
    refine ⟨[], rfl, ?_⟩
    have herase (t : TypeRef) (span : Span) : { t with span }.erase = t.erase := by
      cases t
      rfl
    show WritesType _ (TypeRef.erase { (ms.foldl TypeMark.on t) with span := _ })
    rw [herase, erase_foldl, List.append_nil]
    exact .mk ht hms

end Types

/-- A type was read from tokens that write it. -/
theorem uses_type (heof : x.eof.kind = .eof) (d : Nat) (c : Cursor) :
    Uses x (type (rules d)) c fun ts t => WritesType ts t.erase := by
  induction d generalizing c with
  | zero => exact uses_type_of heof (fun _ => .fail) c
  | succ d ih => exact uses_type_of heof ih c

end Grammar

end CSharpAudit
