import CSharpAudit.Proofs.Grammar.Unit
import CSharpAudit.Proofs.Lexing
import Mathlib.Logic.Relation
import CSharpAudit.Syntax.SpanTable

/-!
# From texts to trees

The tokens of a text make it a layout of its token sequence, so what all layouts have in common
holds of every text that is parsed: the spans of the tree are nested, reading it ends, and the tree
without layout depends on the tokens alone.

## Main definitions

* `SameLexemes` — token lists that differ in layout only
* `Layouts.ofTiles` — texts whose tokens differ in layout only
* `Node.Reaches` — a node is anywhere below another one
* `Grammar.StandsAt`, `Grammar.Consumes` — where a parser stands, and that it goes on

## Main results

* `parse_spans_nested` — the spans of a tree are nested and lie in the text
* `parse_layout_independent` — texts that differ in layout only are parsed alike
* `parse_progress` — reading a text ends, and it stands at a token at all times
-/

namespace CSharpAudit

open Grammar

/-- Token lists that have the same kinds and texts and agree on which tokens touch where this
matters. -/
structure SameLexemes (ts us : List Token) : Prop where
  erase_eq : ts.map Token.erase = us.map Token.erase
  touches_eq : ∀ (j : Nat) (t t' u u' : Token), ts[j]? = some t → ts[j + 1]? = some t' →
    us[j]? = some u → us[j + 1]? = some u' → t.joins t' = true → t.touches t' = u.touches u'

namespace SameLexemes

variable {ts us : List Token} {t u : Token} {j : Nat}

theorem refl (ts : List Token) : SameLexemes ts ts where
  erase_eq := rfl
  touches_eq j t t' u u' ht ht' hu hu' _ := by
    rw [Option.some.inj (ht.symm.trans hu), Option.some.inj (ht'.symm.trans hu')]

/-- Texts with the same lexemes have as many tokens. -/
theorem length_eq (h : SameLexemes ts us) : ts.length = us.length := by
  simpa using congrArg List.length h.erase_eq

/-- In such texts, the same tokens stand close together where that matters. -/
theorem joins_eq (h : SameLexemes ts us) {t' u' : Token} (ht : ts[j]? = some t)
    (ht' : ts[j + 1]? = some t') (hu : us[j]? = some u) (hu' : us[j + 1]? = some u') :
    t.joins t' = u.joins u' := by
  have herase {i : Nat} {s r : Token} (hs : ts[i]? = some s) (hr : us[i]? = some r) :
      s.erase = r.erase := by
    have := congrArg (fun l : List Token => l[i]?) h.erase_eq
    simpa [hs, hr] using this
  have hjoins (s r : Token) : s.joins r = s.erase.joins r.erase := rfl
  calc t.joins t' = t.erase.joins t'.erase := hjoins t t'
    _ = u.erase.joins u'.erase := by rw [herase ht hu, herase ht' hu']
    _ = u.joins u' := (hjoins u u').symm

/-- Having the same lexemes is symmetric. -/
theorem symm (h : SameLexemes ts us) : SameLexemes us ts where
  erase_eq := h.erase_eq.symm
  touches_eq j t t' u u' ht ht' hu hu' hjoins :=
    (h.touches_eq j u u' t t' hu hu' ht ht' (by rwa [h.joins_eq hu hu' ht ht'])).symm

/-- The token that marks the end of the file is never joined to another one. -/
theorem touches_concat (h : SameLexemes (ts ++ [t]) (us ++ [u])) (ht : t.kind = .eof)
    (hjoins : (ts[j]?.getD t).joins (ts[j + 1]?.getD t) = true) :
    (ts[j]?.getD t).touches (ts[j + 1]?.getD t) = (us[j]?.getD u).touches (us[j + 1]?.getD u) := by
  have hlength : ts.length = us.length := by simpa using h.length_eq
  have hj : j + 1 < ts.length := by
    refine Nat.lt_of_not_le fun hle => ?_
    rw [List.getElem?_eq_none hle] at hjoins
    simp [Token.joins, Token.is, ht] at hjoins
  have hts (i : Nat) (hi : i < ts.length) : (ts ++ [t])[i]? = some (ts[i]?.getD t) := by
    rw [List.getElem?_append_left hi, List.getElem?_eq_getElem hi]
    rfl
  have hus (i : Nat) (hi : i < ts.length) : (us ++ [u])[i]? = some (us[i]?.getD u) := by
    rw [List.getElem?_append_left (by omega), List.getElem?_eq_getElem (by omega)]
    rfl
  exact h.touches_eq j _ _ _ _ (hts j (by omega)) (hts (j + 1) hj) (hus j (by omega))
    (hus (j + 1) hj) hjoins

/-- Whether two tokens of each list that stand at the same places touch alike, if this matters. -/
def agreesAt (ts us : List Token) (j : Nat) : Bool :=
  match ts[j]?, ts[j + 1]?, us[j]?, us[j + 1]? with
  | some t, some t', some u, some u' => !t.joins t' || t.touches t' == u.touches u'
  | _, _, _, _ => true

/-- Whether two texts have the same lexemes can be decided token by token. -/
theorem iff_agreesAt : SameLexemes ts us ↔
    ts.map Token.erase = us.map Token.erase ∧ ∀ j < ts.length, agreesAt ts us j = true := by
  refine ⟨fun h => ⟨h.erase_eq, fun j _ => ?_⟩, fun h => ⟨h.1, ?_⟩⟩
  · unfold agreesAt
    split
    · rename_i t t' u u' ht ht' hu hu'
      have := h.touches_eq j t t' u u' ht ht' hu hu'
      cases hjoins : t.joins t' <;> simp_all
    · rfl
  · intro j t t' u u' ht ht' hu hu' hjoins
    have hj : j < ts.length := (List.getElem?_eq_some_iff.mp ht).1
    have := h.2 j hj
    simpa [agreesAt, ht, ht', hu, hu', hjoins] using this

instance : Decidable (SameLexemes ts us) := decidable_of_iff _ iff_agreesAt.symm

end SameLexemes

/-! ### From tokens to trees -/

namespace Layouts

variable {ω : Type}

/-- The texts of a family are layouts of one token sequence if their tokens differ in layout
only. -/
def ofTiles (source : ω → List UInt8) (tokens : ω → List Token) (w₀ : ω)
    (htiles : ∀ w, Lexer.Tiles (source w) 0 (tokens w))
    (hsame : ∀ v w, SameLexemes (tokens v) (tokens w)) : Layouts ω where
  source := source
  tokens w := (tokens w).dropLast
  eof w := (tokens w).getLast?.getD default
  lexemes := ((tokens w₀).map Token.erase).dropLast
  map_erase w := by rw [List.map_dropLast, (hsame w w₀).erase_eq]
  eof_erase w := by
    obtain ⟨ts, t, heq, herase, -⟩ := (htiles w).exists_concat
    simpa [heq] using herase
  eof_span w := by
    obtain ⟨ts, t, heq, -, hspan, -⟩ := (htiles w).exists_concat
    simpa [heq] using hspan
  inOrder w := by
    obtain ⟨ts, t, heq, -, -, horder, -⟩ := (htiles w).exists_concat
    simpa [heq] using horder
  touches_eq v w j hjoins := by
    obtain ⟨ts, t, hts, herase, -⟩ := (htiles v).exists_concat
    obtain ⟨us, u, hus, -⟩ := (htiles w).exists_concat
    have h := hsame v w
    rw [hts, hus] at h
    simp only [Texts.token, hts, hus, List.dropLast_concat, List.getLast?_concat,
      Option.getD_some] at hjoins ⊢
    exact h.touches_concat (congrArg Token.kind herase) hjoins
  source_paren w t ht hparen := by
    obtain ⟨ts, u, heq, -, -, -, htexts⟩ := (htiles w).exists_concat
    rw [heq, List.dropLast_concat] at ht
    exact Lexer.getElem?_of_is_paren (htexts t ht) hparen

variable (L : Layouts ω)

/-- Either all layouts are read to trees that are the same without layout, or all are refused. -/
theorem reads_unitOfTokens :
    (∃ u k, L.UnitLaid u k ∧
      ∀ w, unitOfTokens (L.source w) (L.tokens w) (L.eof w) = .ok (u w)) ∨
    ∃ e : ω → SyntaxError, ∀ w,
      unitOfTokens (L.source w) (L.tokens w) (L.eof w) = .error (e w) ∧ L.Faults w (e w) := by
  simp only [L.unitOfTokens_eq]
  rcases L.reads_unit (good_rules (b := 0) (Nat.lt_succ_self L.size)) (Nat.zero_le 1)
    (Nat.zero_le L.size) with ⟨u, k, -, hu, hok⟩ | ⟨e, he⟩
  · exact .inl ⟨u, k, hu, fun w => congrArg (Except.map Prod.fst) (hok w)⟩
  · exact .inr ⟨e, fun w => ⟨congrArg (Except.map Prod.fst) (he w).1, (he w).2⟩⟩

end Layouts

/-- A text is parsed from its tokens. -/
theorem parse_of_lex {source : List UInt8} {tokens : List Token} {nullable : Bool}
    (h : lex source = .ok (tokens, nullable)) :
    parse source = (unitOfTokens source tokens.dropLast (tokens.getLast?.getD default)).map
      fun u => { u with nullableEnabled := nullable } := by
  rw [parse, h]
  show (unitOfTokens _ _ _ >>= fun u => pure _) = _
  cases unitOfTokens source tokens.dropLast (tokens.getLast?.getD default) <;> rfl

/-- A parsed file is read from the tokens of its text. -/
theorem exists_unitOfTokens_of_parse {source : List UInt8} {u : CompilationUnit Node}
    (h : parse source = .ok u) : ∃ tokens nullable v, lex source = .ok (tokens, nullable) ∧
      unitOfTokens source tokens.dropLast (tokens.getLast?.getD default) = .ok v ∧
        u = { v with nullableEnabled := nullable } := by
  cases hlex : lex source with
  | error e =>
    rw [parse, hlex] at h
    cases h
  | ok r =>
    rw [parse_of_lex hlex] at h
    obtain ⟨v, hv, rfl⟩ := Lexer.map_eq_ok_iff.mp h
    exact ⟨r.1, r.2, v, rfl, hv, rfl⟩

/-- The layout of a single text. -/
def Layouts.ofLex {source : List UInt8} {tokens : List Token} {nullable : Bool}
    (h : lex source = .ok (tokens, nullable)) : Layouts Unit :=
  .ofTiles (fun _ => source) (fun _ => tokens) () (fun _ => Lexer.tiles_of_lex h)
    fun _ _ => .refl tokens

/-! ### Spans -/

namespace Node

/-- `n.Reaches m` says that `m` is `n` or anywhere below it. -/
def Reaches : Node → Node → Prop := Relation.ReflTransGen fun n c => c ∈ n.nodesBelow

variable {n m c : Node} {stop : Nat}

/-- What is not written has no span. -/
theorem Synthesises.span_eq (h : n.Synthesises c) : c.span = .none := by
  unfold Synthesises at h
  split at h
  all_goals first | exact h.elim | rw [h]; rfl | rw [h.2]; rfl

/-- In a tree with nested spans, all nodes lie before the end of the topmost one. -/
theorem Nested.of_reaches (h : n.Nested) (hreach : n.Reaches m) (hstop : n.span.stop ≤ stop) :
    m.Nested ∧ m.span.stop ≤ stop := by
  induction hreach with
  | refl => exact ⟨h, hstop⟩
  | @tail m c _ hc ih =>
    obtain ⟨hm, hle⟩ := ih
    cases hm with
    | intro inside chained below =>
      refine ⟨below c hc, ?_⟩
      rcases inside c hc with hs | ⟨-, -, hc'⟩
      · rw [hs.span_eq]
        exact Nat.zero_le stop
      · exact Nat.le_trans hc' hle

end Node

variable {source : List UInt8} {u : CompilationUnit Node}

/-- All nodes directly below a file are laid in it. -/
theorem Layouts.UnitLaid.nested {ω : Type} {L : Layouts ω} {v : ω → CompilationUnit Node} {k : Nat}
    (h : L.UnitLaid v k) (w : ω) : (Node.unit (v w)).Nested := by
  obtain ⟨hspan, c, hc⟩ := h
  refine .intro (fun n hn => .inr ?_) trivial fun n hn => (hc.fits w n hn).nested
  have hfits := hc.fits w n hn
  refine ⟨hfits.start_lt_stop, ?_⟩
  show (v w).span.start ≤ n.span.start ∧ n.span.stop ≤ (v w).span.stop
  rw [hspan w]
  exact ⟨Nat.zero_le _, Nat.le_trans hfits.stop_le (L.behind_le_length w k)⟩

/-- A file covers all of its text, and its tree is nested. -/
theorem nested_of_parse (h : parse source = .ok u) :
    u.span = ⟨0, source.length⟩ ∧ (Node.unit u).Nested := by
  obtain ⟨tokens, nullable, v, hlex, hv, rfl⟩ := exists_unitOfTokens_of_parse h
  rcases (Layouts.ofLex hlex).reads_unitOfTokens with ⟨v', k, hlaid, hok⟩ | ⟨e, he⟩
  · obtain rfl : v = v' () := Except.ok.inj (hv.symm.trans (hok ()))
    -- that the file enables nullable references changes none of its nodes
    cases hlaid.nested () with
    | intro inside chained below => exact ⟨hlaid.1 (), .intro inside chained below⟩
  · have := hv.symm.trans (he ()).1
    cases this

/-- In the tree of a text, what is written lies inside the text and inside what is around it. -/
theorem parse_spans_nested (h : parse source = .ok u) :
    u.span = ⟨0, source.length⟩ ∧
    (∀ n, (Node.unit u).Reaches n → n.ChainedInside ∧ ∀ c ∈ n.nodesBelow, n.Synthesises c ∨
      c.span.start < c.span.stop ∧ c.span.stop ≤ source.length ∧ c.span.Within n.span) ∧
    ∀ ns ∈ u.fileScopedNamespace, ∀ m ∈ ns.members, m.span.Within ns.span := by
  obtain ⟨hspan, hnested⟩ := nested_of_parse h
  -- The bound on the whole file is handed down to each node.
  have hstop : (Node.unit u).span.stop ≤ source.length := by
    show u.span.stop ≤ source.length
    exact Nat.le_of_eq (by rw [hspan])
  refine ⟨hspan, fun n hn => ?_, fun ns hns m hm => ?_⟩
  · obtain ⟨hn, hle⟩ := hnested.of_reaches hn hstop
    cases hn with
    | intro inside chained below =>
      refine ⟨chained, fun c hc => (inside c hc).imp_right fun hspan => ?_⟩
      obtain ⟨hne, hwithin⟩ := hspan
      exact ⟨hne, Nat.le_trans hwithin.2 hle, hwithin⟩
  · have hns : .namespaceDecl ns ∈ (Node.unit u).nodesBelow := by
      simp_all [Node.nodesBelow, Node.children]
    cases hnested with
    | intro inside chained below =>
      cases below _ hns with
      | intro inside chained below =>
        have hm : m ∈ (Node.namespaceDecl ns).nodesBelow := by simp [Node.nodesBelow, Node.children, hm]
        exact ((inside m hm).resolve_left id).2

/-- A class in a file-scoped namespace, with a destructor and a type argument that is left out. -/
def destructorText : List UInt8 :=
  "namespace N;class C\x7bA<>f;~C()\x7b\x7d\x7d".toList.map Lexer.ascii

theorem destructorText_spans_nested : ∃ u, parse destructorText = .ok u ∧
    u.span = ⟨0, destructorText.length⟩ ∧
    (∀ n, (Node.unit u).Reaches n → n.ChainedInside ∧ ∀ c ∈ n.nodesBelow, n.Synthesises c ∨
      c.span.start < c.span.stop ∧ c.span.stop ≤ destructorText.length ∧ c.span.Within n.span) ∧
    ∀ ns ∈ u.fileScopedNamespace, ∀ m ∈ ns.members, m.span.Within ns.span := by
  have hread : (parse destructorText).toOption.any (fun _ => true) = true := by
    rw [show destructorText = _ from Lexer.ascii_ofList _]
    decide +kernel
  obtain ⟨u, hparse, -⟩ := exists_parse_of_any hread
  exact ⟨u, hparse, parse_spans_nested hparse⟩

/-! ### Layout -/

theorem erase_nullableEnabled (u : CompilationUnit Node) (nullable : Bool) :
    { u with nullableEnabled := nullable }.erase = u.erase := by
  simp only [CompilationUnit.erase_eq]

/-- Texts that differ in layout only are both refused, or have the same tree without layout. -/
theorem parse_layout_independent {source₁ source₂ : List UInt8} {tokens₁ tokens₂ : List Token}
    {nullable₁ nullable₂ : Bool} (h₁ : lex source₁ = .ok (tokens₁, nullable₁))
    (h₂ : lex source₂ = .ok (tokens₂, nullable₂)) (hsame : SameLexemes tokens₁ tokens₂) :
    (∃ e₁ e₂, parse source₁ = .error e₁ ∧ parse source₂ = .error e₂) ∨
    ∃ u₁ u₂, parse source₁ = .ok u₁ ∧ parse source₂ = .ok u₂ ∧ u₁.erase = u₂.erase := by
  -- The two texts are two layouts of the same lexemes, and one run over layouts reads both.
  let source (w : Bool) : List UInt8 := if w then source₁ else source₂
  let tokens (w : Bool) : List Token := if w then tokens₁ else tokens₂
  have htiles (w : Bool) : Lexer.Tiles (source w) 0 (tokens w) := by
    cases w
    · exact Lexer.tiles_of_lex h₂
    · exact Lexer.tiles_of_lex h₁
  have hsame (v w : Bool) : SameLexemes (tokens v) (tokens w) := by
    cases v <;> cases w
    · exact .refl tokens₂
    · exact hsame.symm
    · exact hsame
    · exact .refl tokens₁
  rw [parse_of_lex h₁, parse_of_lex h₂]
  rcases (Layouts.ofTiles source tokens true htiles hsame).reads_unitOfTokens with
    ⟨u, k, ⟨-, c, hc⟩, hok⟩ | ⟨e, he⟩
  · have hok₁ : unitOfTokens source₁ tokens₁.dropLast (tokens₁.getLast?.getD default) =
        .ok (u true) := hok true
    have hok₂ : unitOfTokens source₂ tokens₂.dropLast (tokens₂.getLast?.getD default) =
        .ok (u false) := hok false
    refine .inr ⟨_, _, by rw [hok₁]; rfl, by rw [hok₂]; rfl, ?_⟩
    calc
      _ = (u true).erase := erase_nullableEnabled (u true) nullable₁
      _ = (u false).erase := (hc.erase true).trans (hc.erase false).symm
      _ = _ := (erase_nullableEnabled (u false) nullable₂).symm
  · have he₁ : unitOfTokens source₁ tokens₁.dropLast (tokens₁.getLast?.getD default) =
        .error (e true) := (he true).1
    have he₂ : unitOfTokens source₂ tokens₂.dropLast (tokens₂.getLast?.getD default) =
        .error (e false) := (he false).1
    exact .inl ⟨e true, e false, by rw [he₁]; rfl, by rw [he₂]; rfl⟩

/-- A field with two type arguments that are closed at once. -/
def fieldText : List UInt8 := "class C\x7bA<A<B>>f;\x7d".toList.map Lexer.ascii

/-- The same field with a comment, in more lines. -/
def fieldTextSpread : List UInt8 :=
  "class C\n\x7b // c\n  A<A< B>> f;\n\x7d\n".toList.map Lexer.ascii

theorem fieldText_layout_independent : ∃ u₁ u₂, parse fieldText = .ok u₁ ∧
    parse fieldTextSpread = .ok u₂ ∧ u₁.erase = u₂.erase := by
  obtain ⟨h₁, h₂, hsame, hok⟩ : (lex fieldText).isOk = true ∧ (lex fieldTextSpread).isOk = true ∧
      SameLexemes (lexed fieldText).1 (lexed fieldTextSpread).1 ∧
        (parse fieldText).isOk = true := by
    rw [show fieldText = _ from Lexer.ascii_ofList _,
      show fieldTextSpread = _ from Lexer.ascii_ofList _]
    decide +kernel
  refine (parse_layout_independent (lex_eq_lexed h₁) (lex_eq_lexed h₂) hsame).resolve_left ?_
  rintro ⟨e, -, he, -⟩
  rw [he] at hok
  cases hok

/-! ### Progress -/

/-- The syntax tree of a text and the table of its declared names. -/
def parseWithSpans (source : List UInt8) :
    Except SyntaxError (CompilationUnit Node × List (String × Span)) :=
  (parse source).map fun u => (u, spanTable u)

namespace Grammar

/-- What a parser reads of the tokens of a text, the last of which marks the end of the file. -/
def inputOf (source : List UInt8) (tokens : List Token) : Input :=
  ⟨source, tokens.getLast?.getD default⟩

/-- The cursor at an index of the tokens of a text. -/
def cursorAt (tokens : List Token) : Nat → Cursor
  | 0 => ⟨tokens.dropLast, 0⟩
  | k + 1 => ⟨tokens.dropLast.drop (k + 1), (tokens[k]?.getD default).span.stop⟩

/-- At the token at `k`, a parser sees this token and those behind it up to the one that marks the
end of the file, and goes on to the next one, but never behind the end. -/
structure StandsAt (source : List UInt8) (tokens : List Token) (k : Nat) : Prop where
  peek_eq : ∀ n, ∃ t, tokens[min (k + n) (tokens.length - 1)]? = some t ∧
    peek n (inputOf source tokens) (cursorAt tokens k) = .ok (t, cursorAt tokens k)
  advance_eq : ∃ t, tokens[k]? = some t ∧ advance (inputOf source tokens) (cursorAt tokens k) =
    .ok (t, cursorAt tokens (min (k + 1) (tokens.length - 1)))

/-- From the token at `k` on, a parser goes on to a later token of the text, or it stops at a fault
of the text. -/
def Consumes {α : Type} (source : List UInt8) (tokens : List Token) (k : Nat) (p : Parser α) :
    Prop :=
  (∃ a l, k < l ∧ l < tokens.length ∧
    p (inputOf source tokens) (cursorAt tokens k) = .ok (a, cursorAt tokens l)) ∨
  ∃ e, p (inputOf source tokens) (cursorAt tokens k) = .error e ∧ e.cause.isEndless = false ∧
    ∃ t ∈ tokens, e.offset = t.span.start

end Grammar

namespace Layouts

variable {tokens : List Token} {nullable : Bool} {k : Nat} {α : Type} {p : Parser α}

theorem size_ofLex (h : lex source = .ok (tokens, nullable)) :
    tokens.length = (ofLex h).size + 1 := by
  obtain ⟨ts, t, rfl, -⟩ := (Lexer.tiles_of_lex h).exists_concat
  show (ts ++ [t]).length = (((ts ++ [t]).map Token.erase).dropLast).length + 1
  simp

/-- The tokens of a layout are those of the lexer. -/
theorem token_ofLex (h : lex source = .ok (tokens, nullable)) (hk : k < tokens.length) :
    tokens[k]? = some ((ofLex h).token () k) := by
  obtain ⟨ts, t, rfl, -⟩ := (Lexer.tiles_of_lex h).exists_concat
  show (ts ++ [t])[k]? = some ((ts ++ [t]).dropLast[k]?.getD ((ts ++ [t]).getLast?.getD default))
  rw [List.dropLast_concat, List.getLast?_concat, Option.getD_some, List.getElem?_append]
  split
  · rw [List.getElem?_eq_getElem ‹_›]
    rfl
  · have hlast : k = ts.length := by
      rw [List.length_append, List.length_singleton] at hk
      omega
    subst hlast
    simp

/-- The cursors of a layout are those of the parser. -/
theorem cursor_ofLex (h : lex source = .ok (tokens, nullable)) (hk : k < tokens.length) :
    (ofLex h).cursor () k = cursorAt tokens k := by
  cases k with
  | zero => rfl
  | succ k =>
    rw [cursorAt, token_ofLex h (Nat.lt_of_succ_lt hk)]
    rfl

/-- A production that reads on in all layouts consumes a token of the text. -/
theorem Reads.consumes (h : lex source = .ok (tokens, nullable)) (hk : k < tokens.length)
    {Q : (Unit → α) → Nat → Prop} (hp : (ofLex h).Reads (fun _ => p) k Q)
    (hQ : ∀ a l, Q a l → k < l) : Consumes source tokens k p := by
  have hsize := size_ofLex h
  rcases hp (by omega) with ⟨a, l, hl, ha, hrun⟩ | ⟨e, he⟩
  · refine .inl ⟨a (), l, hQ a l ha, by omega, ?_⟩
    rw [← cursor_ofLex h hk, ← cursor_ofLex h (by omega)]
    exact hrun ()
  · obtain ⟨hrun, hendless, j, hj, hoffset⟩ := he ()
    refine .inr ⟨e (), ?_, hendless, (ofLex h).token () j, ?_, hoffset⟩
    · rw [← cursor_ofLex h hk]
      exact hrun
    · exact List.mem_of_getElem? (token_ofLex h (by omega))

/-- Where the tokens end, nothing is consumed. -/
theorem run_advance_size {ω : Type} (L : Layouts ω) (w : ω) :
    advance (L.input w) (L.cursor w L.size) = .ok (L.eof w, L.cursor w L.size) := by
  have hrest : (L.tokens w).drop L.size = [] := by
    rw [← L.length_tokens w, List.drop_length]
  rw [Texts.cursor, hrest]
  rfl

/-- A token index is a place where the parser may stand. -/
theorem standsAt (h : lex source = .ok (tokens, nullable)) (hk : k < tokens.length) :
    StandsAt source tokens k where
  peek_eq n := by
    have hsize := size_ofLex h
    refine ⟨(ofLex h).token () (k + n), ?_, ?_⟩
    -- Where fewer tokens are left, the last one is seen.
    · by_cases hlt : k + n < tokens.length
      · rw [Nat.min_eq_left (by omega)]
        exact token_ofLex h hlt
      · rw [Nat.min_eq_right (by omega), token_ofLex h (by omega),
          (ofLex h).token_of_size_le (by omega), (ofLex h).token_of_size_le (by omega)]
    · rw [← cursor_ofLex h hk]
      exact run_peek () n k
  advance_eq := by
    have hsize := size_ofLex h
    refine ⟨(ofLex h).token () k, token_ofLex h hk, ?_⟩
    rw [← cursor_ofLex h hk, ← cursor_ofLex h (by omega)]
    by_cases hlt : k < (ofLex h).size
    · rw [Nat.min_eq_left (by omega)]
      exact run_advance () hlt
    · obtain rfl : k = (ofLex h).size := by omega
      rw [Nat.min_eq_right (by omega), hsize, Nat.add_sub_cancel,
        (ofLex h).token_of_size_le (Nat.le_refl _)]
      exact run_advance_size (ofLex h) ()

end Layouts

/-- Parsing succeeds, or tells of a fault inside the text. -/
theorem parseWithSpans_ok_or_fault (source : List UInt8) :
    (∃ u, parseWithSpans source = .ok (u, spanTable u)) ∨
    ∃ e, parseWithSpans source = .error e ∧ e.cause.isEndless = false ∧
      0 ≤ e.offset ∧ e.offset ≤ source.length := by
  -- The fault comes from the lexer or from the parser, and each keeps inside the text.
  cases hlex : lex source with
  | error e =>
    obtain ⟨⟨hnonneg, hoffset⟩, hcause⟩ := Lexer.faultOf_lex hlex
    refine .inr ⟨e, ?_, hcause, hnonneg, Int.le_of_lt hoffset⟩
    rw [parseWithSpans, parse, hlex]
    rfl
  | ok r =>
    obtain ⟨tokens, nullable⟩ := r
    rw [parseWithSpans, parse_of_lex hlex]
    rcases (Layouts.ofLex hlex).reads_unitOfTokens with ⟨u, k, -, hok⟩ | ⟨e, he⟩
    · have hok : unitOfTokens source tokens.dropLast (tokens.getLast?.getD default) = .ok (u ()) :=
        hok ()
      rw [hok]
      exact .inl ⟨_, rfl⟩
    · obtain ⟨he, hcause, j, hj, hoffset⟩ := he ()
      have he : unitOfTokens source tokens.dropLast (tokens.getLast?.getD default) =
          .error (e ()) := he
      rw [he]
      have hbehind := (Layouts.ofLex hlex).start_le_behind () j
      have hlength := (Layouts.ofLex hlex).behind_le_length () (j + 1)
      refine .inr ⟨e (), rfl, hcause, ?_⟩
      rw [hoffset]
      exact ⟨Int.natCast_nonneg _, Int.ofNat_le.mpr (Nat.le_trans hbehind hlength)⟩

namespace Grammar

variable {α : Type} {p next : Parser α} {x : Input} {c c' : Cursor} {left : Nat} {e : SyntaxError}

/-- A loop does not go on behind a round that consumed nothing. -/
theorem nextRound_stalled (h : left ≤ c.rest.length) :
    ∃ e, nextRound left next x c = .error e ∧ e.cause = .stalled := by
  refine ⟨⟨((c.rest[0]?).getD x.eof).span.start, .stalled⟩, ?_, rfl⟩
  show (if c.rest.length < left then next else fail .stalled) x c = _
  rw [if_neg (Nat.not_lt.mpr h)]
  rfl

/-- A reading that is given up leaves the cursor where it was. -/
theorem eq_of_attempt_none (h : attempt p x c = .ok (none, c')) : c' = c := by
  unfold attempt at h
  split at h
  · cases h
  · split at h
    · cases h
    · cases h
      rfl

/-- A loop without progress is not given up silently. -/
theorem attempt_stalled (h : p x c = .error e) (he : e.cause = .stalled) :
    attempt p x c = .error e := by
  simp [attempt, h, he, SyntaxError.Cause.isEndless]

end Grammar

/-- Reading a text ends with a tree or a fault of the text. It stands at a token of the text at all
times, and each construct that is read consumes one. A round of a loop that consumed nothing would
stop the reading with a cause that no speculation hides and that no reading ends with; a speculation
that fails goes back to where it began. -/
theorem parse_progress (source : List UInt8) :
    ((∃ u, parseWithSpans source = .ok (u, spanTable u)) ∨
      ∃ e, parseWithSpans source = .error e ∧ e.cause.isEndless = false ∧
        0 ≤ e.offset ∧ e.offset ≤ source.length) ∧
    (∀ tokens nullable, lex source = .ok (tokens, nullable) → ∀ k < tokens.length,
      StandsAt source tokens k ∧
      ∀ depth, tokens.length ≤ depth + k + 1 →
        Consumes source tokens k (typeLevelDecl (rules depth)) ∧
        Consumes source tokens k (member (rules depth)) ∧
        Consumes source tokens k (statement (rules depth)) ∧
        Consumes source tokens k (expr (rules depth)) ∧
        Consumes source tokens k (pattern (rules depth)) ∧
        Consumes source tokens k (type (rules depth))) ∧
    (∀ (α : Type) (left : Nat) (next : Parser α) (x : Input) (c : Grammar.Cursor),
      left ≤ c.rest.length → ∃ e, nextRound left next x c = .error e ∧ e.cause = .stalled) ∧
    ∀ (α : Type) (p : Parser α) (x : Input) (c : Grammar.Cursor),
      (∀ c', attempt p x c = .ok (none, c') → c' = c) ∧
      ∀ e, p x c = .error e → e.cause = .stalled → attempt p x c = .error e := by
  refine ⟨parseWithSpans_ok_or_fault source, fun tokens nullable h k hk => ⟨Layouts.standsAt h hk,
    fun depth hdepth => ?_⟩, fun α left next x c h => nextRound_stalled h, fun α p x c =>
    ⟨fun c' h => eq_of_attempt_none h, fun e h he => attempt_stalled h he⟩⟩
  -- Behind a token there is one level of nesting less to read, and the depth is enough for it.
  have hgood : (Layouts.ofLex h).Good (k + 1) (rules depth) := by
    have hsize := Layouts.size_ofLex h
    exact Layouts.good_rules (by omega)
  have hle : k + 1 ≤ k + 1 := Nat.le_refl _
  exact ⟨(Layouts.yields_typeLevelDecl hgood hle).consumes h hk fun _ _ h => h.1,
    (Layouts.yields_member hgood hle).consumes h hk fun _ _ h => h.1,
    (Layouts.yields_statement hgood hle).consumes h hk fun _ _ h => h.1,
    (Layouts.yields_expr hgood hle).consumes h hk fun _ _ h => h.1,
    (Layouts.yields_pattern hgood hle).consumes h hk fun _ _ h => h.1,
    (Layouts.yields_type hgood hle).consumes h hk fun _ _ h => h.1⟩

theorem fieldText_progress : ∃ tokens nullable, lex fieldText = .ok (tokens, nullable) ∧
    StandsAt fieldText tokens 0 ∧
    Consumes fieldText tokens 0 (typeLevelDecl (rules tokens.length)) := by
  obtain ⟨hok, hpos⟩ : (lex fieldText).isOk = true ∧ 0 < (lexed fieldText).1.length := by
    rw [show fieldText = _ from Lexer.ascii_ofList _]
    decide +kernel
  have hlex := lex_eq_lexed hok
  obtain ⟨hstands, hconsumes⟩ := (parse_progress fieldText).2.1 _ _ hlex 0 hpos
  exact ⟨_, _, hlex, hstands, (hconsumes _ (by omega)).1⟩

end CSharpAudit
