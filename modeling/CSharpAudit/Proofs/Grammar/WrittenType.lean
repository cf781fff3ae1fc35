import CSharpAudit.Proofs.Grammar.TypeTest
import Mathlib.Data.List.Chain

/-!
# Written types

A type is a predefined word, a name with type arguments or a tuple, with marks behind it. A question
mark directly before a bracket is left to the expression grammar. All other types are read in full
wherever the token behind them does not go on with a type.

A parser takes some tokens if it succeeds on every text that begins with them and stops behind them.
What it yields is known up to a property, which the parser behind it may use.

## Main definitions

* `Grammar.Takes` — a parser reads some tokens in full
* `Grammar.Stops` — where a parser stops if it succeeds
* `WritesType` — the tokens that write a type
* `TypeMark.on` — a type with one more mark
* `NoMarkBeforeBracket` — tokens without a question mark directly before a bracket
* `Token.EndsType` — a token that does not go on with a type

## Main results

* `Grammar.Takes.bind`, `Grammar.Takes.stops` — one parser behind another
* `Grammar.Takes.extendSome`, `Grammar.Takes.extendNone` — one round of a loop
* `Grammar.takes_type` — types without such a mark are read in full
-/

/-! ### Readings of given tokens -/

namespace CSharpAudit.Grammar

variable {α β : Type} {x : Input} {p : Parser α} {P : α → Prop} {Q : β → Prop}
  {t : Token} {ts us vs : List Token} {s : String} {n : Nat}

/-- A parser reads the tokens `ts` in full if `us` follow, and what it yields has a property. -/
def Takes (x : Input) (p : Parser α) (ts us : List Token) (P : α → Prop) : Prop :=
  ∀ k, ∃ a k', p x ⟨ts ++ us, k⟩ = .ok (a, ⟨us, k'⟩) ∧ P a

theorem Takes.pure {a : α} (h : P a) : Takes x (Pure.pure a) [] us P := fun k => ⟨a, k, rfl, h⟩

/-- What is known of the value may be weakened. -/
theorem Takes.imp {R : α → Prop} (h : Takes x p ts us P) (hR : ∀ a, P a → R a) :
    Takes x p ts us R := by
  intro k
  obtain ⟨a, k', hrun, ha⟩ := h k
  exact ⟨a, k', hrun, hR a ha⟩

section Bind

variable {f : α → Parser β}

/-- One parser reads on where the one before it stops. -/
theorem Takes.bind (hp : Takes x p ts (us ++ vs) P) (hf : ∀ a, P a → Takes x (f a) us vs Q) :
    Takes x (p >>= f) (ts ++ us) vs Q := by
  intro k
  obtain ⟨a, k₁, hrun, ha⟩ := hp k
  obtain ⟨b, k₂, hrun', hb⟩ := hf a ha k₁
  exact ⟨b, k₂, by rw [List.append_assoc, run_bind_of_ok hrun, hrun'], hb⟩

/-- A parser goes on without reading more. -/
theorem Takes.then (hp : Takes x p ts us P) (hf : ∀ a, P a → Takes x (f a) [] us Q) :
    Takes x (p >>= f) ts us Q := by
  intro k
  obtain ⟨a, k₁, hrun, ha⟩ := hp k
  obtain ⟨b, k₂, hrun', hb⟩ := hf a ha k₁
  exact ⟨b, k₂, by rw [run_bind_of_ok hrun, ← hrun', List.nil_append], hb⟩

end Bind

/-- The first token may be consumed whatever it is. -/
theorem Takes.advance {f : Token → Parser β} (h : Takes x (f t) ts us Q) :
    Takes x (advance >>= f) (t :: ts) us Q := fun _ => h t.span.stop

/-- A token that has to be there. -/
theorem Takes.expect {f : Token → Parser β} (ht : t.is s = true) (h : Takes x (f t) ts us Q) :
    Takes x (expect s >>= f) (t :: ts) us Q := by
  intro k
  rw [List.cons_append, run_expect_bind, if_pos ht]
  exact h t.span.stop

theorem Takes.discard {f : Unit → Parser β} (h : Takes x (p >>= fun _ => f ()) ts us Q) :
    Takes x (discard p >>= f) ts us Q := by
  intro k
  rw [run_discard_bind]
  exact h k

theorem run_accept_not {c : Cursor} {f : Bool → Parser β} (h : (ahead x c.rest 0).is s = false) :
    (accept s >>= f) x c = f false x c := by
  rw [accept, Layouts.acceptIf_bind, run_is_bind, h]
  rfl

/-- A token that is missing is a fault. -/
theorem run_expect_not {c : Cursor} {f : Token → Parser β} (h : (ahead x c.rest 0).is s = false) :
    ∃ e, (Grammar.expect s >>= f) x c = .error e := by
  rw [Grammar.expect, bind_assoc, run_is_bind, h]
  exact ⟨_, rfl⟩

/-- An optional token that is missing. -/
theorem Takes.acceptNot {f : Bool → Parser β} (h : (ahead x (ts ++ us) 0).is s = false)
    (hf : Takes x (f false) ts us Q) : Takes x (accept s >>= f) ts us Q := by
  intro k
  rw [run_accept_not h]
  exact hf k

/-- An optional token that is there. -/
theorem Takes.accept {f : Bool → Parser β} (ht : t.is s = true) (h : Takes x (f true) ts us Q) :
    Takes x (Grammar.accept s >>= f) (t :: ts) us Q := by
  intro k
  rw [List.cons_append, run_accept_bind, if_pos ht]
  exact h t.span.stop

/-! ### Lists with commas -/

section Items

variable {item : Parser α} {cond : Parser Bool} {c : Cursor} {fuel fuel' : Nat}

/-- More fuel than there are tokens makes no difference. -/
theorem repeatFuel_eq (h : c.rest.length < fuel) (h' : c.rest.length < fuel') :
    repeatFuel cond item fuel x c = repeatFuel cond item fuel' x c := by
  induction fuel generalizing fuel' c with
  | zero => exact absurd h (Nat.not_lt_zero _)
  | succ fuel ih =>
    obtain ⟨fuel', rfl⟩ : ∃ n, fuel' = n + 1 := Nat.exists_eq_succ_of_ne_zero (by omega)
    rw [Layouts.repeatFuel_succ, Layouts.repeatFuel_succ, run_tokensLeft_bind, run_tokensLeft_bind]
    match hpart : Grammar.optionalPart cond item x c with
    | .error e => rw [run_bind_of_error hpart, run_bind_of_error hpart]
    | .ok (none, c') => rw [run_bind_of_ok hpart, run_bind_of_ok hpart]
    | .ok (some a, c') =>
      rw [run_bind_of_ok hpart, run_bind_of_ok hpart]
      refine run_bind_congr ?_
      rw [run_nextRound, run_nextRound]
      by_cases hleft : c'.rest.length < c.rest.length
      · rw [if_pos hleft, if_pos hleft]
        exact ih (by omega) (by omega)
      · rw [if_neg hleft, if_neg hleft]

theorem run_moreItems_none (h : (ahead x c.rest 0).is "," = false) :
    moreItems item x c = .ok ([], c) := by
  rw [moreItems, repeatWhile, run_bound_bind, repeatFuel, run_tokensLeft_bind, run_accept_not h]
  rfl

/-- Behind a comma the items go on as they began. -/
theorem run_moreItems_comma (hitem : Shortens item) {k : Nat} (ht : t.is "," = true) :
    moreItems item x ⟨t :: us, k⟩ = separated item x ⟨us, t.span.stop⟩ := by
  rw [moreItems, repeatWhile, run_bound_bind, repeatFuel, run_tokensLeft_bind, run_accept_bind,
    if_pos ht]
  simp only [if_true]
  rw [separated]
  rcases hrun : item x ⟨us, t.span.stop⟩ with e | ⟨a, c'⟩
  · rw [run_bind_of_error hrun, run_bind_of_error hrun]
  · have hle : c'.rest.length ≤ us.length := (hitem hrun).length_le
    rw [run_bind_of_ok hrun, run_bind_of_ok hrun]
    refine run_bind_congr ?_
    rw [run_nextRound, if_pos (by simpa using Nat.lt_succ_of_le hle)]
    show _ = repeatFuel (Grammar.accept ",") item (c'.rest.length + 1) x c'
    exact repeatFuel_eq (by simpa using Nat.lt_succ_of_le hle) (Nat.lt_succ_self _)

end Items

/-! ### Loops -/

/-- The last round of a loop. -/
theorem Takes.extendNone {step : α → Parser (Option α)} {a : α} {P : α → Prop}
    (h : Takes x (step a) [] us (· = none)) (ha : P a) : Takes x (extend step a) [] us P := by
  intro k
  obtain ⟨o, k', hrun, rfl⟩ := h k
  exact ⟨a, k', run_extend_none hrun, ha⟩

/-- One round of a loop, which takes at least one token. -/
theorem Takes.extendSome {step : α → Parser (Option α)} {a : α} {P Q : α → Prop}
    (h : Takes x (step a) ts (us ++ vs) fun o => ∃ b, o = some b ∧ P b) (hts : ts ≠ [])
    (hmore : ∀ b, P b → Takes x (extend step b) us vs Q) :
    Takes x (extend step a) (ts ++ us) vs Q := by
  intro k
  obtain ⟨o, k₁, hrun, b, rfl, hb⟩ := h k
  obtain ⟨b', k₂, hrun', hb'⟩ := hmore b hb k₁
  rw [← List.append_assoc] at hrun
  refine ⟨b', k₂, ?_, hb'⟩
  rw [run_extend_some hrun, hrun']
  simpa using List.length_pos_iff.mpr hts

/-! ### Where a parser stops -/

/-- Every reading of some tokens stops at an end of them that has a property. -/
def Stops (x : Input) (p : Parser α) (ts : List Token) (S : List Token → Prop) : Prop :=
  ∀ ⦃k a c⦄, p x ⟨ts, k⟩ = .ok (a, c) → S c.rest

section Stops

variable {f : α → Parser β} {S R : List Token → Prop}

theorem Stops.pure {a : α} (h : S ts) : Stops x (Pure.pure a) ts S := by
  intro k b c hrun
  cases hrun
  exact h

/-- The second of two parsers decides where both stop. -/
theorem Stops.bind (hp : Stops x p ts S) (hf : ∀ a us, S us → Stops x (f a) us R) :
    Stops x (p >>= f) ts R := by
  intro k b c hrun
  obtain ⟨a, c₁, hrun₁, hrun₂⟩ := run_bind_eq_ok.mp hrun
  exact hf a c₁.rest (hp hrun₁) hrun₂

theorem Stops.fail_bind (hp : Stops x p ts fun _ => False) : Stops x (p >>= f) ts R :=
  hp.bind fun _ _ h => h.elim

/-- Behind tokens that are taken, the next parser decides. -/
theorem Takes.stops (hp : Takes x p ts us P) (hf : ∀ a, P a → Stops x (f a) us R) :
    Stops x (p >>= f) (ts ++ us) R := by
  intro k b c hrun
  obtain ⟨a, k', hrun', ha⟩ := hp k
  rw [run_bind_of_ok hrun'] at hrun
  exact hf a ha hrun

theorem Stops.discard {f : Unit → Parser β} (h : Stops x (p >>= fun _ => f ()) ts S) :
    Stops x (Functor.discard p >>= f) ts S := by
  intro k b c hrun
  rw [run_discard_bind] at hrun
  exact h hrun

theorem Stops.expect {f : Token → Parser β} (h : Stops x (f t) ts S) :
    Stops x (Grammar.expect s >>= f) (t :: ts) S := by
  intro k b c hrun
  rw [run_expect_bind] at hrun
  split at hrun
  · exact h hrun
  · cases hrun

/-- A loop whose round fails does not succeed. -/
theorem Stops.extendError {step : α → Parser (Option α)} {a : α}
    (h : Stops x (step a) ts fun _ => False) : Stops x (extend step a) ts S := by
  intro k b c hrun
  match hstep : step a x ⟨ts, k⟩ with
  | .ok (o, c') => exact (h hstep).elim
  | .error e =>
    have herror : extend step a x ⟨ts, k⟩ = .error e := run_extendFuel_error hstep
    cases herror.symm.trans hrun

/-- Behind a round that takes some tokens, the rest of the loop decides. -/
theorem Takes.stopsExtend {step : α → Parser (Option α)} {a : α}
    (h : Takes x (step a) ts us fun o => ∃ b, o = some b ∧ P b) (hts : ts ≠ [])
    (hmore : ∀ b, P b → Stops x (extend step b) us S) :
    Stops x (extend step a) (ts ++ us) S := by
  intro k b c hrun
  obtain ⟨o, k₁, hrun₁, b', rfl, hb⟩ := h k
  rw [run_extend_some hrun₁ (by simpa using List.length_pos_iff.mpr hts)] at hrun
  exact hmore b' hb hrun

end Stops

end CSharpAudit.Grammar

namespace CSharpAudit

open Grammar

/-! ### The notation of types -/

/-- A mark behind a type. -/
inductive TypeMark where
  | nullable
  | pointer
  | array
  deriving DecidableEq, Repr

namespace TypeMark

/-- A type with one more mark. -/
def on (t : TypeRef) : TypeMark → TypeRef
  | nullable => { t with nullable := true }
  | pointer => { t with pointer := true }
  | array => { t with rank := t.rank + 1 }

/-- The tokens that write a mark. -/
inductive Writes : List Token → TypeMark → Prop
  | nullable {q : Token} (hq : q.is "?" = true) : Writes [q] nullable
  | pointer {s : Token} (hs : s.is "*" = true) : Writes [s] pointer
  | array {o c : Token} (cs : List Token) (ho : o.is "[" = true) (hcs : ∀ t ∈ cs, t.is "," = true)
    (hc : c.is "]" = true) : Writes (o :: (cs ++ [c])) array

end TypeMark

/-- The tokens that write several marks. -/
inductive WritesMarks : List Token → List TypeMark → Prop
  | nil : WritesMarks [] []
  | cons {us ts : List Token} {m : TypeMark} {ms : List TypeMark} (hus : m.Writes us)
    (hts : WritesMarks ts ms) : WritesMarks (us ++ ts) (m :: ms)

/-- Lists that are written with commas between their items. -/
inductive SeparatedBy {α : Type} (W : List Token → α → Prop) : List Token → List α → Prop
  | one {ts : List Token} {a : α} (h : W ts a) : SeparatedBy W ts [a]
  | cons {ts us : List Token} {comma : Token} {a : α} {as : List α} (h : W ts a)
    (hcomma : comma.is "," = true) (hus : SeparatedBy W us as) :
    SeparatedBy W (ts ++ comma :: us) (a :: as)

section Inner

variable (W : List Token → TypeRef → Prop)

/-- A type argument, which may be missing. -/
inductive WritesArg : List Token → TypeRef → Prop
  | omitted : WritesArg [] .omitted
  | type {ts : List Token} {t : TypeRef} (h : W ts t) : WritesArg ts t

/-- A list of type arguments in angle brackets. Without it, the arguments read before stay. -/
inductive WritesArgs : List TypeRef → List Token → List TypeRef → Prop
  | none {before : List TypeRef} : WritesArgs before [] before
  | some {o c : Token} {ts : List Token} {before args : List TypeRef} (ho : o.is "<" = true)
    (h : SeparatedBy (WritesArg W) ts args) (hc : c.is ">" = true) :
    WritesArgs before (o :: (ts ++ [c])) args

/-- The segments behind the first one of a name. The arguments behind the last of them count. -/
inductive WritesSegments : List TypeRef → List Token → List String → List TypeRef → Prop
  | nil {args : List TypeRef} : WritesSegments args [] [] args
  | cons {point i : Token} {us ts : List Token} {args args' args'' : List TypeRef}
    {names : List String} (hpoint : point.is "." = true) (hi : i.isIdent = true)
    (hus : WritesArgs W args us args') (hts : WritesSegments args' ts names args'') :
    WritesSegments args (point :: i :: (us ++ ts)) (i.text :: names) args''

/-- An element of a tuple type. -/
inductive WritesElement : List Token → TypeRef × String → Prop
  | unnamed {ts : List Token} {t : TypeRef} (h : W ts t) : WritesElement ts (t, "")
  | named {ts : List Token} {t : TypeRef} {i : Token} (h : W ts t) (hi : i.isIdent = true) :
    WritesElement (ts ++ [i]) (t, i.text)

/-- A predefined type, a name or a tuple, whose inner types are written as `W` says. -/
inductive WritesUnmarked : List Token → TypeRef → Prop
  | predefined {t : Token} (ht : t.isPredefinedType = true) :
    WritesUnmarked [t] { span := .none, name := t.text }
  | named {fs us ts : List Token} {first : String} {names : List String}
    {args args' : List TypeRef} (hfs : WritesFirst fs first) (hus : WritesArgs W [] us args)
    (hts : WritesSegments W args ts names args') :
    WritesUnmarked (fs ++ (us ++ ts))
      { span := .none, name := ".".intercalate (first :: names), args := args' }
  | tuple {o c : Token} {ts : List Token} {elements : List (TypeRef × String)}
    (ho : o.is "(" = true) (h : SeparatedBy (WritesElement W) ts elements)
    (htwo : 2 ≤ elements.length) (hc : c.is ")" = true) :
    WritesUnmarked (o :: (ts ++ [c]))
      { span := .none, name := TypeRef.tupleName, args := elements.map (·.1),
        tupleNames := elements.map (·.2) }

end Inner

/-- The tokens that write a type. The type has no spans. -/
inductive WritesType : List Token → TypeRef → Prop
  | mk {us ts : List Token} {t : TypeRef} {ms : List TypeMark}
    (hus : WritesUnmarked WritesType us t) (hts : WritesMarks ts ms) :
    WritesType (us ++ ts) (ms.foldl TypeMark.on t)

/-- No question mark stands directly before a bracket. -/
def NoMarkBeforeBracket (ts : List Token) : Prop :=
  ts.IsChain fun q b => q.is "?" = true → b.is "[" = false

/-- The last token, if there is one, is no question mark. -/
def NoMarkAtEnd (ts : List Token) : Prop := ∀ q ∈ ts.getLast?, q.is "?" = false

namespace NoMarkBeforeBracket

variable {t : Token} {ts us : List Token}

theorem left (h : NoMarkBeforeBracket (ts ++ us)) : NoMarkBeforeBracket ts :=
  (List.isChain_append.mp h).1

theorem right (h : NoMarkBeforeBracket (ts ++ us)) : NoMarkBeforeBracket us :=
  (List.isChain_append.mp h).2.1

theorem tail (h : NoMarkBeforeBracket (t :: us)) : NoMarkBeforeBracket us :=
  List.IsChain.tail h

/-- Two lists of tokens may be joined unless a question mark meets a bracket. -/
theorem append (hts : NoMarkBeforeBracket ts) (hus : NoMarkBeforeBracket us)
    (h : ∀ q ∈ ts.getLast?, ∀ b ∈ us.head?, q.is "?" = true → b.is "[" = false) :
    NoMarkBeforeBracket (ts ++ us) :=
  List.isChain_append.mpr ⟨hts, hus, h⟩

theorem cons (ht : t.is "?" = false) (h : NoMarkBeforeBracket ts) :
    NoMarkBeforeBracket (t :: ts) :=
  List.IsChain.cons h fun _ _ hmark => absurd hmark (by simp [ht])

theorem concat (h : NoMarkBeforeBracket ts) (ht : t.is "[" = false) :
    NoMarkBeforeBracket (ts ++ [t]) := by
  refine h.append (List.isChain_singleton _) ?_
  intro q _ b hb _
  cases hb
  exact ht

theorem append_of_end (hts : NoMarkBeforeBracket ts)
    (hus : NoMarkBeforeBracket us) (h : NoMarkAtEnd ts) : NoMarkBeforeBracket (ts ++ us) :=
  hts.append hus fun q hq _ _ hmark => by simp [h q hq] at hmark

end NoMarkBeforeBracket

/-- A token that does not go on with a type. -/
def Token.EndsType (t : Token) : Prop := ∀ s ∈ ["::", ".", "<", "?", "*", "["], t.is s = false

/-- Any other text ends a type. -/
theorem Token.endsType_of_is {t : Token} {s : String} (h : t.is s = true)
    (hs : s ∉ ["::", ".", "<", "?", "*", "["]) : t.EndsType := by
  intro s' hs'
  rw [Token.is_eq_of_is h]
  exact beq_false_of_ne fun heq => hs (heq ▸ hs')

theorem Token.endsType_of_isIdent {t : Token} (h : t.isIdent = true) : t.EndsType :=
  fun _ _ => Token.is_eq_false_of_isIdent h _

theorem WritesUnmarked.exists_cons {W : List Token → TypeRef → Prop} {ts : List Token} {t : TypeRef}
    (h : WritesUnmarked W ts t) : ∃ b bs, ts = b :: bs ∧ (b.BeginsType ∨ b.is "(" = true) := by
  cases h with
  | predefined ht => exact ⟨_, _, rfl, .inl (.inr ht)⟩
  | named hfs =>
    obtain ⟨i, us, rfl, hi⟩ := hfs.exists_cons
    exact ⟨i, _, rfl, .inl (.inl hi)⟩
  | tuple ho => exact ⟨_, _, rfl, .inr ho⟩

/-- A written type begins with a word, a name or a parenthesis. -/
theorem WritesType.exists_cons {ts : List Token} {t : TypeRef} (h : WritesType ts t) :
    ∃ b bs, ts = b :: bs ∧ (b.BeginsType ∨ b.is "(" = true) := by
  cases h with
  | mk hus hts =>
    obtain ⟨b, bs, rfl, hb⟩ := hus.exists_cons
    exact ⟨b, _, rfl, hb⟩

theorem Token.is_eq_false_of_begins {b : Token} (h : b.BeginsType ∨ b.is "(" = true) {s : String}
    (hs : s ∉ "(" :: predefinedTypes) : b.is s = false := by
  rcases h with h | h
  · exact h.is_eq fun hmem => hs (List.mem_cons_of_mem _ hmem)
  · rw [Token.is_eq_of_is h]
    exact beq_false_of_ne fun heq => hs (heq ▸ List.mem_cons_self)

/-- Marks begin with `?`, `*` or `[`. -/
theorem WritesMarks.head {ts : List Token} {ms : List TypeMark} (h : WritesMarks ts ms) :
    ts = [] ∨ ∃ b bs, ts = b :: bs ∧ (b.is "?" = true ∨ b.is "*" = true ∨ b.is "[" = true) := by
  cases h with
  | nil => exact .inl rfl
  | cons hus =>
    refine .inr ?_
    cases hus with
    | nullable hq => exact ⟨_, _, rfl, .inl hq⟩
    | pointer hs => exact ⟨_, _, rfl, .inr (.inl hs)⟩
    | array _ ho => exact ⟨_, _, rfl, .inr (.inr ho)⟩

namespace Grammar

variable {α β : Type} {x : Input} {self : Rules} {t : Token} {ts r vs : List Token} {s : String}
  {n d : Nat}

/-! ### Lists with commas -/

/-- A list with commas is read in full if each of its items is. -/
theorem takes_separated {γ : Type} {W : List Token → γ → Prop} {e : α → γ} {item : Parser α}
    {as : List γ} {Φ : Token → Prop} (hshort : Shortens item)
    (hitem : ∀ vs a rest, vs.length < n → W vs a → NoMarkBeforeBracket vs → Φ (ahead x rest 0) →
      Takes x item vs rest (e · = a))
    (hΦ : ∀ t, t.is "," = true → Φ t) (hts : SeparatedBy W ts as) (hn : ts.length < n)
    (hclean : NoMarkBeforeBracket ts) (hus : Φ (ahead x r 0))
    (hcomma : (ahead x r 0).is "," = false) :
    Takes x (separated item) ts r (·.map e = as) := by
  induction hts with
  | @one ts a h =>
    refine (hitem ts a r hn h hclean hus).then fun b hb => ?_
    refine Takes.then (P := (· = [])) (fun k => ⟨[], k, run_moreItems_none hcomma, rfl⟩) ?_
    rintro _ rfl
    exact .pure (by simp [hb])
  | @cons ts vs comma a as h ht _ ih =>
    rw [List.length_append, List.length_cons] at hn
    refine (hitem ts a (comma :: vs ++ r) (by omega) h hclean.left (hΦ comma ht)).bind
      fun b hb => ?_
    refine Takes.then (P := (·.map e = as)) (fun k => ?_) fun bs hbs => .pure (by simp [hb, hbs])
    obtain ⟨bs, k', hrun, hbs⟩ := ih (by omega) hclean.right.tail comma.span.stop
    exact ⟨bs, k', by rw [List.cons_append, run_moreItems_comma hshort ht, hrun], hbs⟩

/-! ### Types -/

/-- Shorter types are read in full. -/
def ReadsShorter (x : Input) (self : Rules) (n : Nat) : Prop :=
  ∀ ⦃ts t r⦄, ts.length < n → WritesType ts t → NoMarkBeforeBracket ts →
    (ahead x r 0).EndsType → Takes x self.type ts r (·.erase = t)

section

variable (hself : ReadsShorter x self n) (hshort : Shortens self.type)
include hself

theorem takes_typeArg {t : TypeRef} (h : WritesArg WritesType ts t) (hn : ts.length < n)
    (hclean : NoMarkBeforeBracket ts)
    (hus : ((ahead x r 0).is "," || (ahead x r 0).is ">") = true) :
    Takes x (typeArg self) ts r (·.erase = t) := by
  cases h with
  | omitted =>
    intro k
    refine ⟨.omitted, k, ?_, rfl⟩
    rw [typeArg, run_is_bind, run_is_bind]
    simp only [List.nil_append, hus, if_true]
    rfl
  | type h =>
    have hends : (ahead x r 0).EndsType := by
      rcases Bool.or_eq_true_iff.mp hus with h | h <;> exact Token.endsType_of_is h (by decide)
    have htype := hself hn h hclean hends
    obtain ⟨b, bs, rfl, hb⟩ := h.exists_cons
    intro k
    -- A type starts with neither a comma nor an angle, so it is not taken for one left out.
    rw [typeArg, run_is_bind, run_is_bind]
    simp only [List.cons_append, ahead_zero, Token.is_eq_false_of_begins hb (s := ",") (by decide),
      Token.is_eq_false_of_begins hb (s := ">") (by decide), Bool.or_self, Bool.false_eq_true,
      if_false]
    exact htype k

include hshort in
omit hself in
theorem shortens_typeArg : Shortens (typeArg self) :=
  (Shortens.peekIs 0 _).bind fun _ => (Shortens.peekIs 0 _).bind fun _ => .ite (.pure _) hshort

include hshort

/-- Type arguments are read in full. -/
theorem takes_typeArgs {o c : Token} {args : List TypeRef} (ho : o.is "<" = true)
    (h : SeparatedBy (WritesArg WritesType) ts args) (hc : c.is ">" = true) (hn : ts.length < n)
    (hclean : NoMarkBeforeBracket ts) :
    Takes x (typeArgs self) (o :: (ts ++ [c])) r (·.map TypeRef.erase = args) := by
  refine .discard <| .expect ho ?_
  refine Takes.bind (takes_separated (n := n) (Φ := fun t => (t.is "," || t.is ">") = true)
    (shortens_typeArg hshort) (fun vs a rest hn h hclean hus => takes_typeArg hself h hn hclean hus)
    (fun t ht => by simp [ht]) h hn hclean (by simp [hc]) (Token.is_eq_of_is hc _)) fun as has => ?_
  exact .discard <| .expect hc <| .pure has

theorem takes_replaceArgs {before args bs : List TypeRef} (h : WritesArgs WritesType before ts args)
    (hn : ts.length ≤ n) (hclean : NoMarkBeforeBracket ts) (hbs : bs.map TypeRef.erase = before)
    (hus : (ahead x r 0).is "<" = false) :
    Takes x (replaceArgs self bs) ts r (·.map TypeRef.erase = args) := by
  cases h with
  | none =>
    intro k
    refine ⟨bs, k, ?_, hbs⟩
    rw [replaceArgs, run_is_bind]
    simp only [List.nil_append, hus, Bool.false_eq_true, if_false]
    rfl
  | @some o c ts before args ho h hc =>
    simp only [List.length_cons, List.length_append] at hn
    have htake := takes_typeArgs hself hshort (r := r) ho h hc (by omega) hclean.tail.left
    intro k
    rw [replaceArgs, run_is_bind]
    simp only [List.cons_append, ahead_zero, ho, if_true]
    exact htake k

theorem takes_segmentStep {point i : Token} {args args' bs : List TypeRef}
    (segments : List String) (hpoint : point.is "." = true) (hi : i.isIdent = true)
    (h : WritesArgs WritesType args ts args') (hn : ts.length ≤ n)
    (hclean : NoMarkBeforeBracket ts) (hbs : bs.map TypeRef.erase = args)
    (hus : (ahead x r 0).is "<" = false) :
    Takes x (segmentStep self (segments, bs)) (point :: i :: ts) r fun o =>
      ∃ b, o = some b ∧ b.1 = i.text :: segments ∧ b.2.map TypeRef.erase = args' := by
  have hargs := takes_replaceArgs hself hshort h hn hclean hbs hus
  have hrest : Takes x (do
      let args ← replaceArgs self bs
      return some (i.text :: segments, args)) ts r fun o =>
        ∃ b, o = some b ∧ b.1 = i.text :: segments ∧ b.2.map TypeRef.erase = args' :=
    hargs.then fun as has => .pure ⟨_, rfl, rfl, has⟩
  intro k
  rw [segmentStep, run_is_bind, run_peekIdent_bind]
  simp only [List.cons_append, ahead_zero, ahead_succ, hpoint, hi, Bool.and_self, if_true]
  rw [run_discard_bind]
  exact hrest i.span.stop

omit hself hshort in
/-- What stands behind the last argument list does not begin another one. -/
theorem ahead_segments {args args' : List TypeRef} {names : List String}
    (h : WritesSegments WritesType args ts names args') (hus : (ahead x r 0).is s = false)
    (hs : s ≠ ".") : (ahead x (ts ++ r) 0).is s = false := by
  cases h with
  | nil => exact hus
  | cons hpoint =>
    show Token.is _ s = false
    rw [List.cons_append, ahead_zero, Token.is_eq_of_is hpoint]
    exact beq_false_of_ne hs.symm

/-- The segments behind the first one are read in full. -/
theorem takes_segments {args args' bs : List TypeRef} {names segments : List String}
    (h : WritesSegments WritesType args ts names args') (hn : ts.length ≤ n)
    (hclean : NoMarkBeforeBracket ts) (hbs : bs.map TypeRef.erase = args)
    (hpoint : (ahead x r 0).is "." = false) (hangle : (ahead x r 0).is "<" = false) :
    Takes x (extend (segmentStep self) (segments, bs)) ts r fun p =>
      p.1 = names.reverse ++ segments ∧ p.2.map TypeRef.erase = args' := by
  induction h generalizing bs segments with
  | nil =>
    refine .extendNone (fun k => ⟨none, k, ?_, rfl⟩) ⟨rfl, hbs⟩
    rw [segmentStep, run_is_bind, run_peekIdent_bind]
    simp [hpoint]
  | @cons point i ts ts' args args' args'' names hpt hi hargs hts ih =>
    simp only [List.length_cons, List.length_append] at hn
    have hstep := takes_segmentStep hself hshort (r := ts' ++ r) segments hpt hi
      hargs (by omega) hclean.tail.tail.left hbs (ahead_segments hts hangle (by decide))
    have hmore := hstep.extendSome (List.cons_ne_nil _ _) fun b hb => by
      obtain ⟨segments', bs'⟩ := b
      obtain ⟨rfl, hbs'⟩ := hb
      exact ih (by omega) hclean.tail.tail.right hbs'
    simpa [List.append_assoc] using hmore

omit hself hshort in
theorem takes_identText {i : Token} (hi : i.isIdent = true) :
    Takes x identText [i] r (· = i.text) :=
  fun _ => ⟨_, _, run_identText hi, rfl⟩

omit hself hshort in
theorem takes_firstSegment {fs : List Token} {first : String} (hfs : WritesFirst fs first)
    (hus : (ahead x r 0).is "::" = false) : Takes x firstSegment fs r (· = first) := by
  cases hfs with
  | plain hi =>
    refine (takes_identText hi).then ?_
    rintro _ rfl
    exact .acceptNot hus (.pure rfl)
  | qualified hi hsep hj =>
    refine Takes.bind (takes_identText hi) ?_
    rintro _ rfl
    exact .accept hsep (takes_identText hj)

/-- A name with its type arguments is read in full. -/
theorem takes_namedType {fs ts' : List Token} {first : String} {names : List String}
    {args args' : List TypeRef} (hfs : WritesFirst fs first)
    (hus : WritesArgs WritesType [] ts args)
    (hts : WritesSegments WritesType args ts' names args') (hn : ts.length + ts'.length ≤ n)
    (hclean : NoMarkBeforeBracket (ts ++ ts')) (hends : Ends (ahead x r 0)) :
    Takes x (namedType self) (fs ++ (ts ++ ts')) r fun t => t.erase =
      { span := .none, name := ".".intercalate (first :: names), args := args' } := by
  -- The first segment stops in front of arguments or a point, neither of which is a pair of colons.
  have hfirst : Takes x firstSegment fs ((ts ++ ts') ++ r) (· = first) := by
    refine takes_firstSegment hfs ?_
    rw [List.append_assoc]
    cases hus with
    | none =>
      show (ahead x (ts' ++ r) 0).is "::" = false
      exact ahead_segments hts hends.colons (by decide)
    | some ho => exact Token.is_eq_of_is ho _
  rw [namedType_eq]
  refine hfirst.bind ?_
  rintro _ rfl
  refine (takes_replaceArgs hself hshort hus (by omega) hclean.left rfl
    (ahead_segments hts hends.angle (by decide))).bind fun as has => ?_
  refine (takes_segments hself hshort hts (by omega) hclean.right has hends.point hends.angle).then
    fun p hp => .pure ?_
  rw [TypeRef.erase_mk, hp.2, hp.1]
  simp

omit hshort in
theorem takes_tupleElement {a : TypeRef × String} (h : WritesElement WritesType ts a)
    (hn : ts.length < n) (hclean : NoMarkBeforeBracket ts)
    (hus : ((ahead x r 0).is "," || (ahead x r 0).is ")") = true) :
    Takes x (tupleElement self) ts r fun b => (b.1.erase, b.2) = a := by
  cases h with
  | unnamed h =>
    have hends : (ahead x r 0).EndsType ∧ (ahead x r 0).isIdent = false := by
      rcases Bool.or_eq_true_iff.mp hus with h | h <;>
        exact ⟨Token.endsType_of_is h (by decide), by
          by_contra hi
          rw [Token.is_eq_false_of_isIdent (by simpa using hi)] at h
          cases h⟩
    refine (hself hn h hclean hends.1).then fun t ht => ?_
    subst ht
    intro k
    refine ⟨(t, ""), k, ?_, rfl⟩
    simp [optionalIdent, hends.2]
  | @named ts t i h hi =>
    rw [List.length_append] at hn
    have htype := hself (r := [i] ++ r) (by omega) h hclean.left (Token.endsType_of_isIdent hi)
    refine htype.bind fun t ht => ?_
    subst ht
    intro k
    refine ⟨(t, i.text), i.span.stop, ?_, rfl⟩
    simp [optionalIdent, hi, -bind_pure_comp]

/-- A tuple type is read in full. -/
theorem takes_tupleType {o c : Token} {elements : List (TypeRef × String)} (ho : o.is "(" = true)
    (h : SeparatedBy (WritesElement WritesType) ts elements) (htwo : 2 ≤ elements.length)
    (hc : c.is ")" = true) (hn : ts.length < n) (hclean : NoMarkBeforeBracket ts) :
    Takes x (tupleType self) (o :: (ts ++ [c])) r fun t => t.erase =
      { span := .none, name := TypeRef.tupleName, args := elements.map (·.1),
        tupleNames := elements.map (·.2) } := by
  have helement : Shortens (tupleElement self) :=
    hshort.bind fun _ => Shortens.optionalIdent.bind fun _ => .pure _
  refine .discard <| .expect ho ?_
  refine Takes.bind (takes_separated (n := n) (Φ := fun t => (t.is "," || t.is ")") = true)
    helement (fun vs a rest hn h hclean hus => takes_tupleElement hself h hn hclean hus)
    (fun t ht => by simp [ht]) h hn hclean (by simp [hc]) (Token.is_eq_of_is hc _)) fun es hes => ?_
  subst hes
  rw [List.length_map] at htwo
  refine .discard <| .expect hc ?_
  rw [if_neg (Nat.not_lt_of_le htwo)]
  refine .pure ?_
  rw [TypeRef.erase_mk]
  simp

/-- A type without marks is read in full if nothing behind it goes on with it. -/
theorem takes_unmarkedType {t : TypeRef} (h : WritesUnmarked WritesType ts t) (hn : ts.length ≤ n)
    (hclean : NoMarkBeforeBracket ts) (hends : Ends (ahead x r 0)) :
    Takes x (unmarkedType self) ts r (·.erase = t) := by
  -- The first token tells which of the three it is.
  cases h with
  | @predefined t ht =>
    have hparen : t.is "(" = false := Token.BeginsType.is_eq (.inr ht) (by decide)
    intro k
    refine ⟨{ span := .none, name := t.text }, t.span.stop, ?_, rfl⟩
    simp [unmarkedType, hparen, ht, predefinedType, -bind_pure_comp]
  | @named fs r' ts first names args args' hfs hus hts =>
    have htake := takes_namedType hself hshort (r := r) hfs hus hts
      (by simp only [List.length_append] at hn; omega) hclean.right hends
    obtain ⟨i, is, rfl, hi⟩ := hfs.exists_cons
    have hpredefined : i.isPredefinedType = false := by
      rw [Token.isIdent, beq_iff_eq] at hi
      simp [Token.isPredefinedType, hi]
    intro k
    have h := htake k
    simpa [unmarkedType, Token.is_eq_false_of_isIdent hi, hpredefined, hi] using h
  | @tuple o c ts elements ho h htwo hc =>
    simp only [List.length_cons, List.length_append] at hn
    have htake := takes_tupleType hself hshort (r := r) ho h htwo hc (by omega) hclean.tail.left
    intro k
    have h := htake k
    simpa [unmarkedType, ho] using h

end

/-! ### Marks -/

theorem takes_commas {cs : List Token} (hcs : ∀ t ∈ cs, t.is "," = true)
    (hus : (ahead x r 0).is "," = false) :
    Takes x (repeatWhile (accept ",") (pure ())) cs r fun _ => True := by
  have hshort : Shortens (pure () : Parser Unit) := .pure ()
  induction cs with
  | nil => exact fun k => ⟨[], k, run_moreItems_none hus, trivial⟩
  | cons c cs ih =>
    obtain ⟨hc, hcs⟩ := List.forall_mem_cons.mp hcs
    intro k
    obtain ⟨as, k', hrun, -⟩ := ih hcs c.span.stop
    refine ⟨() :: as, k', ?_, trivial⟩
    refine (run_moreItems_comma hshort hc).trans ?_
    show (moreItems (pure ()) >>= fun as => pure (() :: as)) x ⟨cs ++ r, c.span.stop⟩ = _
    exact run_bind_of_ok hrun

/-- A mark is read in full. A question mark needs something else than a bracket behind it.
-/
theorem takes_typeMark {m : TypeMark} {t : TypeRef} (h : m.Writes ts)
    (hus : m = .nullable → (ahead x r 0).is "." = false ∧ (ahead x r 0).is "[" = false) :
    Takes x (typeMark t) ts r (· = some (m.on t)) := by
  cases h with
  | @nullable q hq =>
    obtain ⟨hpoint, hbracket⟩ := hus rfl
    intro k
    refine ⟨_, q.span.stop, ?_, rfl⟩
    simp [typeMark, hq, hpoint, hbracket, TypeMark.on, -bind_pure_comp]
  | @pointer q hq =>
    intro k
    refine ⟨_, q.span.stop, ?_, rfl⟩
    have hmark : q.is "?" = false := Token.is_eq_of_is hq _
    simp [typeMark, hq, hmark, TypeMark.on, -bind_pure_comp]
  | @array o c cs ho hcs hc =>
    have hmark : o.is "?" = false := Token.is_eq_of_is ho _
    have hstar : o.is "*" = false := Token.is_eq_of_is ho _
    -- Behind the opening bracket stands a comma or the closing one, so an array mark is seen.
    have hnext : ((ahead x (cs ++ [c] ++ r) 0).is "]" ||
        (ahead x (cs ++ [c] ++ r) 0).is ",") = true := by
      cases cs with
      | nil => simp [hc]
      | cons d cs => simp [hcs d List.mem_cons_self]
    have harray : Takes x (arrayMark >>= fun _ => pure (some (TypeMark.array.on t)))
        (o :: (cs ++ [c])) r (· = some (TypeMark.array.on t)) := by
      rw [arrayMark, bind_assoc]
      refine .discard <| .advance ?_
      rw [bind_assoc]
      refine .discard <| Takes.bind (takes_commas hcs ?_) fun _ _ =>
        .discard <| .expect hc <| .pure rfl
      exact Token.is_eq_of_is hc _
    intro k
    rw [typeMark, run_is_bind, run_peekIs_bind, run_peekIs_bind, run_ite]
    simp only [List.cons_append, ahead_zero, ahead_succ, hmark, Bool.false_and,
      Bool.false_eq_true, if_false]
    rw [run_is_bind, run_ite]
    simp only [ahead_zero, hstar, Bool.false_eq_true, if_false]
    rw [run_atArrayMark_bind, run_ite]
    simp only [ahead_zero, ho, hnext, ahead_succ, Bool.and_self, if_true]
    exact harray k

theorem ahead_marks {ms : List TypeMark} {s : String} (h : WritesMarks ts ms)
    (hus : (ahead x r 0).is s = false) (hs : s ∉ ["?", "*", "["]) :
    (ahead x (ts ++ r) 0).is s = false := by
  rcases h.head with rfl | ⟨b, bs, rfl, hb⟩
  · exact hus
  · rw [List.cons_append, ahead_zero]
    simp only [List.mem_cons, List.not_mem_nil, or_false, not_or] at hs
    rcases hb with hb | hb | hb <;> rw [Token.is_eq_of_is hb] <;>
      exact beq_false_of_ne (Ne.symm (by tauto))

/-- A token that ends a type is no mark. -/
theorem typeMark_none {t : TypeRef} (hus : (ahead x r 0).EndsType) :
    Takes x (typeMark t) [] r (· = none) := by
  intro k
  refine ⟨none, k, ?_, rfl⟩
  have hmark := hus "?" (by decide)
  have hstar := hus "*" (by decide)
  have hbracket := hus "[" (by decide)
  simp [typeMark, run_atArrayMark_bind, hmark, hstar, hbracket]

/-- The marks behind a type are read in full. -/
theorem takes_marks {ms : List TypeMark} (h : WritesMarks ts ms) (hclean : NoMarkBeforeBracket ts)
    (hus : (ahead x r 0).EndsType) (t : TypeRef) :
    Takes x (extend typeMark t) ts r (· = ms.foldl TypeMark.on t) := by
  induction h generalizing t with
  | nil => exact .extendNone (typeMark_none hus) rfl
  | @cons vs ts m ms hvs hts ih =>
    have hstep : Takes x (typeMark t) vs (ts ++ r) (· = some (m.on t)) := by
      refine takes_typeMark hvs ?_
      -- Behind a question mark stands another mark, which is no bracket by `hclean`, or the end.
      rintro rfl
      refine ⟨ahead_marks hts (hus _ (by decide)) (by decide), ?_⟩
      cases hvs with
      | @nullable q hq =>
        cases hts.head with
        | inl h => rw [h]; exact hus _ (by decide)
        | inr h =>
          obtain ⟨b, bs, rfl, -⟩ := h
          exact (List.isChain_cons_cons.mp hclean).1 hq
    refine Takes.extendSome (P := (· = m.on t)) (hstep.imp ?_) ?_ ?_
    · rintro _ rfl
      exact ⟨_, rfl, rfl⟩
    · cases hvs <;> exact List.cons_ne_nil _ _
    · rintro _ rfl
      exact ih hclean.right _

theorem ends_marks {ms : List TypeMark} (h : WritesMarks ts ms) (hus : (ahead x r 0).EndsType) :
    Ends (ahead x (ts ++ r) 0) :=
  ⟨ahead_marks h (hus _ (by decide)) (by decide), ahead_marks h (hus _ (by decide)) (by decide),
    ahead_marks h (hus _ (by decide)) (by decide)⟩

/-- Marks do not depend on spans. -/
theorem erase_foldl (ms : List TypeMark) (t : TypeRef) :
    (ms.foldl TypeMark.on t).erase = ms.foldl TypeMark.on t.erase := by
  induction ms generalizing t with
  | nil => rfl
  | cons m ms ih =>
    rw [List.foldl_cons, List.foldl_cons, ih]
    cases m <;> cases t <;> rfl

/-- A type is read in full if the types inside of it are. -/
theorem takes_type_of (hself : ReadsShorter x self n) (hshort : Shortens self.type) {t : TypeRef}
    (h : WritesType ts t) (hn : ts.length ≤ n) (hclean : NoMarkBeforeBracket ts)
    (hus : (ahead x r 0).EndsType) : Takes x (type self) ts r (·.erase = t) := by
  cases h with
  | @mk vs ts t ms hvs hts =>
    rw [List.length_append] at hn
    have hbase := takes_unmarkedType hself hshort (r := ts ++ r) hvs (by omega) hclean.left
      (ends_marks hts hus)
    have hrest (start : Nat) : Takes x (do
        let marked ← extend typeMark (← unmarkedType self)
        return { marked with span := ← spanFrom start }) (vs ++ ts) r
        fun u => u.erase = ms.foldl TypeMark.on t := by
      -- The span that is added at the end is erased again.
      refine hbase.bind fun b hb => ?_
      refine (takes_marks hts hclean.right hus b).then fun u hu => ?_
      intro k
      refine ⟨_, k, rfl, ?_⟩
      subst hu hb
      rw [← erase_foldl]
      generalize ms.foldl TypeMark.on b = u
      cases u
      rfl
    exact fun k => hrest _ k

/-- A written type is read in full unless a question mark in it stands before a bracket. -/
theorem takes_type {t : TypeRef} (h : WritesType ts t) (hd : ts.length ≤ d)
    (hclean : NoMarkBeforeBracket ts) (hus : (ahead x r 0).EndsType) :
    Takes x (type (rules d)) ts r (·.erase = t) := by
  induction d generalizing ts r t with
  | zero =>
    obtain ⟨b, bs, rfl, -⟩ := h.exists_cons
    cases hd
  | succ d ih =>
    refine takes_type_of (n := d + 1) ?_ (shortens_type_rules _) h hd hclean hus
    intro ts t r hn h hclean hus
    exact ih h (Nat.le_of_lt_succ hn) hclean hus

end Grammar

end CSharpAudit
