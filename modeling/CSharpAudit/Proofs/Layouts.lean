import CSharpAudit.Grammar.Unit

/-!
# Layouts of one token sequence

Several source texts may write the same tokens and differ in the white space and the comments
between them. A family of such texts is indexed by a type `ω`. While a parser reads all of them, it
stands in each text before the same token, so the place it has reached is one number for all texts:
the index of the current token.

## Main definitions

* `Token.erase` — a token without its place and documentation
* `InOrder` — tokens that follow each other without overlap
* `Layouts` — a family of texts that write the same tokens
* `Layouts.start`, `Layouts.behind` — where the token at an index starts, and where the one before
  it ends
* `Layouts.cursor` — the cursor of a parser that has consumed a number of tokens

## Main results

* `Layouts.start_lt_behind`, `Layouts.behind_le_start` — tokens are not empty and do not overlap
* `Layouts.start_mono`, `Layouts.behind_mono` — the places of tokens grow with their index
-/

namespace CSharpAudit

open Grammar

/-- A token without its place and documentation. -/
def Token.erase (t : Token) : Token := { t with span := .none, doc := "" }

/-- The token that marks the end of a file, without its place. -/
def Token.final : Token := { kind := .eof, text := "", span := .none }

/-- Whether it matters that a token touches the one behind it. -/
def Token.joins (t u : Token) : Bool :=
  (t.is ">" && (u.is ">" || u.is ">=")) || (t.is "?" && u.is "[")

/-- Whether a token touches the one behind it. -/
def Token.touches (t u : Token) : Bool := t.span.stop == u.span.start

/-- Tokens that are not empty, do not overlap and stand in order between two offsets. -/
def InOrder (stop : Nat) : Nat → List Token → Prop
  | start, [] => start ≤ stop
  | start, t :: ts => start ≤ t.span.start ∧ t.span.start < t.span.stop ∧ InOrder stop t.span.stop ts

/-- Texts with their tokens, the last one of each text apart. -/
structure Texts (ω : Type) where
  source : ω → List UInt8
  tokens : ω → List Token
  /-- The token that marks the end of the file. -/
  eof : ω → Token

namespace Texts

variable {ω : Type} (L : Texts ω)

/-- The token at an index; behind the others stands the one that marks the end of the file. -/
def token (w : ω) (j : Nat) : Token := (L.tokens w)[j]?.getD (L.eof w)

/-- Where the token at an index starts. -/
def start (w : ω) (j : Nat) : Nat := (L.token w j).span.start

/-- Where the token before an index ends. -/
def behind (w : ω) : Nat → Nat
  | 0 => 0
  | j + 1 => (L.token w j).span.stop

/-- What a parser of one text reads. -/
def input (w : ω) : Input := ⟨L.source w, L.eof w⟩

/-- The cursor of a parser that has consumed `j` tokens. -/
def cursor (w : ω) (j : Nat) : Grammar.Cursor := ⟨(L.tokens w).drop j, L.behind w j⟩

end Texts

/-- Texts that write the same tokens. They agree on which tokens touch where this matters. -/
structure Layouts (ω : Type) extends Texts ω where
  /-- The tokens that all texts write. -/
  lexemes : List Token
  map_erase : ∀ w, (tokens w).map Token.erase = lexemes
  eof_erase : ∀ w, (eof w).erase = .final
  eof_span : ∀ w, (eof w).span = ⟨(source w).length, (source w).length⟩
  inOrder : ∀ w, InOrder (source w).length 0 (tokens w)
  touches_eq : ∀ v w j, (toTexts.token v j).joins (toTexts.token v (j + 1)) = true →
    (toTexts.token v j).touches (toTexts.token v (j + 1)) =
      (toTexts.token w j).touches (toTexts.token w (j + 1))
  /-- The source text kept of a deconstruction starts with its parenthesis. -/
  source_paren : ∀ w, ∀ t ∈ tokens w, t.is "(" = true →
    (source w)[t.span.start]? = some (Lexer.ascii '(')

namespace Layouts

variable {ω : Type} (L : Layouts ω)

/-- The number of tokens before the end of the file. -/
def size : Nat := L.lexemes.length

/-- The token that all texts write at an index. -/
def lexeme (j : Nat) : Token := L.lexemes[j]?.getD .final

/-- All texts of a family have as many tokens. -/
theorem length_tokens (w : ω) : (L.tokens w).length = L.size := by
  rw [size, ← L.map_erase w, List.length_map]

/-- A token of any text is the lexeme at its index, but for its place. -/
theorem erase_token (w : ω) (j : Nat) : (L.token w j).erase = L.lexeme j := by
  rw [lexeme, ← L.map_erase w, List.getElem?_map, Texts.token]
  cases (L.tokens w)[j]? with
  | none => exact L.eof_erase w
  | some t => rfl

@[simp] theorem token_kind (w : ω) (j : Nat) : (L.token w j).kind = (L.lexeme j).kind := by
  rw [← L.erase_token w j]; rfl

@[simp] theorem token_text (w : ω) (j : Nat) : (L.token w j).text = (L.lexeme j).text := by
  rw [← L.erase_token w j]; rfl

/-- A token has the same text in all layouts. -/
@[simp] theorem token_is (w : ω) (j : Nat) (s : String) :
    (L.token w j).is s = (L.lexeme j).is s := by
  rw [← L.erase_token w j]; rfl

@[simp] theorem token_isWord (w : ω) (j : Nat) (s : String) :
    (L.token w j).isWord s = (L.lexeme j).isWord s := by
  rw [← L.erase_token w j]; rfl

@[simp] theorem token_isIdent (w : ω) (j : Nat) : (L.token w j).isIdent = (L.lexeme j).isIdent := by
  rw [← L.erase_token w j]; rfl

@[simp] theorem token_isPredefinedType (w : ω) (j : Nat) :
    (L.token w j).isPredefinedType = (L.lexeme j).isPredefinedType := by
  rw [← L.erase_token w j]; rfl

/-- Whether two tokens touch is the same in all texts where it matters. -/
theorem exists_touches {c : Bool} {j : Nat}
    (h : c = true → (L.lexeme j).joins (L.lexeme (j + 1)) = true) :
    ∃ d, (d = true → c = true) ∧
      ∀ w, (c && (L.token w j).touches (L.token w (j + 1))) = d := by
  cases c with
  | false => exact ⟨false, id, fun _ => rfl⟩
  | true =>
    by_cases hω : Nonempty ω
    · obtain ⟨v⟩ := hω
      have hjoins : (L.token v j).joins (L.token v (j + 1)) = true := by
        simpa [Token.joins] using h rfl
      exact ⟨(L.token v j).touches (L.token v (j + 1)), fun _ => rfl,
        fun w => (L.touches_eq v w j hjoins).symm⟩
    · exact ⟨false, fun _ => rfl, fun w => absurd ⟨w⟩ hω⟩

/-! ### The end of the file -/

/-- Behind the last token stands the end of the file. -/
theorem lexeme_of_size_le {j : Nat} (h : L.size ≤ j) : L.lexeme j = .final := by
  rw [lexeme, List.getElem?_eq_none h]; rfl

/-- A token of any other kind stands before the end. -/
theorem lt_size_of_kind {j : Nat} (h : (L.lexeme j).kind ≠ .eof) : j < L.size := by
  refine Nat.lt_of_not_le fun hj => h ?_
  rw [L.lexeme_of_size_le hj]
  rfl

/-- A lexeme with a text is not the end of the file. -/
theorem lt_size_of_is {j : Nat} {s : String} (h : (L.lexeme j).is s = true) : j < L.size := by
  refine L.lt_size_of_kind fun hk => ?_
  simp [Token.is, hk] at h

theorem lt_size_of_isWord {j : Nat} {s : String} (h : (L.lexeme j).isWord s = true) :
    j < L.size := by
  refine L.lt_size_of_kind fun hk => ?_
  simp [Token.isWord, hk] at h

theorem lt_size_of_isIdent {j : Nat} (h : (L.lexeme j).isIdent = true) : j < L.size := by
  refine L.lt_size_of_kind fun hk => ?_
  simp [Token.isIdent, hk] at h

theorem lt_size_of_isPredefinedType {j : Nat} (h : (L.lexeme j).isPredefinedType = true) :
    j < L.size := by
  refine L.lt_size_of_kind fun hk => ?_
  simp [Token.isPredefinedType, hk] at h

/-! ### The places of tokens -/

/-- A token before the end is one of the text. -/
theorem token_mem {w : ω} {j : Nat} (h : j < L.size) : L.token w j ∈ L.tokens w := by
  have hj : j < (L.tokens w).length := by rwa [L.length_tokens]
  rw [Texts.token, List.getElem?_eq_getElem hj]
  exact List.getElem_mem hj

end Layouts

/-- In a list of tokens in order, each token stands behind the one before it. -/
theorem InOrder.getElem {stop : Nat} {ts : List Token} {start j : Nat} (h : InOrder stop start ts)
    (hj : j < ts.length) :
    start ≤ ts[j].span.start ∧ ts[j].span.start < ts[j].span.stop ∧
      InOrder stop ts[j].span.stop (ts.drop (j + 1)) := by
  induction ts generalizing start j with
  | nil => simp at hj
  | cons t ts ih =>
    obtain ⟨hstart, hlt, hrest⟩ := h
    cases j with
    | zero => exact ⟨hstart, hlt, hrest⟩
    | succ j =>
      obtain ⟨h₁, h₂, h₃⟩ := ih hrest (by simpa using hj)
      exact ⟨by simp only [List.getElem_cons_succ]; omega, h₂, h₃⟩

/-- Tokens in order end where they start or behind it. -/
theorem InOrder.le {stop : Nat} {ts : List Token} {start : Nat} (h : InOrder stop start ts) :
    start ≤ stop := by
  induction ts generalizing start with
  | nil => exact h
  | cons t ts ih =>
    obtain ⟨hstart, hlt, hrest⟩ := h
    have := ih hrest
    omega

namespace Layouts

variable {ω : Type} (L : Layouts ω)

theorem token_eq_getElem {w : ω} {j : Nat} (h : j < (L.tokens w).length) :
    L.token w j = (L.tokens w)[j] := by
  rw [Texts.token, List.getElem?_eq_getElem h]; rfl

/-- Behind the last token stands the end of the file, in each text. -/
theorem token_of_size_le {w : ω} {j : Nat} (h : L.size ≤ j) : L.token w j = L.eof w := by
  rw [Texts.token, List.getElem?_eq_none (by rwa [L.length_tokens])]; rfl

/-- The rest of the tokens is in order behind the last token consumed. -/
theorem inOrder_drop (w : ω) (j : Nat) :
    InOrder (L.source w).length (L.behind w j) ((L.tokens w).drop j) := by
  cases j with
  | zero => exact L.inOrder w
  | succ j =>
    rw [Texts.behind]
    by_cases h : j < (L.tokens w).length
    · rw [L.token_eq_getElem h]
      exact ((L.inOrder w).getElem h).2.2
    · rw [List.drop_of_length_le (by omega), L.token_of_size_le (by rw [← L.length_tokens w]; omega),
        L.eof_span]
      exact Nat.le_refl _

theorem behind_le_length (w : ω) (j : Nat) : L.behind w j ≤ (L.source w).length :=
  (L.inOrder_drop w j).le

/-- A token starts where the one before it ends, or later. -/
theorem behind_le_start (w : ω) (j : Nat) : L.behind w j ≤ L.start w j := by
  rw [Texts.start]
  by_cases h : j < (L.tokens w).length
  · have hdrop := L.inOrder_drop w j
    rw [List.drop_eq_getElem_cons h] at hdrop
    rw [L.token_eq_getElem h]
    exact hdrop.1
  · rw [L.token_of_size_le (by rw [← L.length_tokens w]; omega), L.eof_span]
    exact L.behind_le_length w j

/-- A token is not empty. -/
theorem start_lt_behind (w : ω) {j : Nat} (h : j < L.size) : L.start w j < L.behind w (j + 1) := by
  rw [← L.length_tokens w] at h
  rw [Texts.start, Texts.behind, L.token_eq_getElem h]
  exact ((L.inOrder w).getElem h).2.1

theorem start_le_behind (w : ω) (j : Nat) : L.start w j ≤ L.behind w (j + 1) := by
  by_cases h : j < L.size
  · exact Nat.le_of_lt (L.start_lt_behind w h)
  · exact Nat.le_of_eq (by
      rw [Texts.start, Texts.behind, L.token_of_size_le (by omega), L.eof_span])

/-- The ends of tokens grow with their index. -/
theorem behind_mono (w : ω) {j k : Nat} (h : j ≤ k) : L.behind w j ≤ L.behind w k := by
  induction h with
  | refl => exact Nat.le_refl _
  | step _ ih =>
    exact Nat.le_trans ih (Nat.le_trans (L.behind_le_start w _) (L.start_le_behind w _))

/-- The starts of tokens grow with their index. -/
theorem start_mono (w : ω) {j k : Nat} (h : j ≤ k) : L.start w j ≤ L.start w k := by
  rcases Nat.eq_or_lt_of_le h with rfl | h
  · exact Nat.le_refl _
  · calc L.start w j ≤ L.behind w (j + 1) := L.start_le_behind w j
      _ ≤ L.behind w k := L.behind_mono w h
      _ ≤ L.start w k := L.behind_le_start w k

/-- What is read from one index to a later one covers some text. -/
theorem start_lt_behind_of_lt (w : ω) {j k : Nat} (h : j < k) (hk : k ≤ L.size) :
    L.start w j < L.behind w k :=
  Nat.lt_of_lt_of_le (L.start_lt_behind w (Nat.lt_of_lt_of_le h hk)) (L.behind_mono w h)

end Layouts

end CSharpAudit
