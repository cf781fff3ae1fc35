import CSharpAudit.Proofs.Running
import Mathlib.Algebra.Ring.Int.Defs

/-!
# Two endings of one guard

A guard ends before an arrow. Whether an expression is accepted in full is said of another text, in
which a semicolon stands in the place of the arrow. A parser reads both texts alike if no question
that it asks tells the two tokens apart. Behind them the texts are the same, so what is read from
there on need not be looked at.

Two questions tell them apart: whether a lambda begins at the current token, and whether `!` is a
postfix operator. The guards considered here leave no room for either. All brackets of a guard
match, and what a parser reads in it leaves no bracket open. So the ending is never the current
token inside of brackets, and there any question may be asked.

## Main definitions

* `Balanced` — tokens whose brackets match
* `StartsExpr` — the tokens behind which an expression may begin
* `LambdaHead` — tokens that make a lambda with an arrow behind them
* `Endings` — a guard with its two endings
* `Endings.Closed` — the brackets between two indices match
* `Endings.Agrees` — a parser reads both texts alike

## Main results

* `Endings.Agrees.bind` — parsers that read both texts alike may be put one after the other
* `Endings.agrees_peek` — a look at a token that does not tell the two endings apart
* `Endings.Agrees.attempt` — a speculative reading fails in both texts or in none
* `Endings.Agrees.repeatWhile`, `Endings.Agrees.enclosed`, `Endings.Agrees.extend`,
  `Endings.Agrees.skipBalanced` — loops have as many rounds in both texts
-/

namespace CSharpAudit

open Grammar

/-! ### Brackets -/

/-- An opening bracket and the one that closes it. -/
def brackets : List (String × String) := [("(", ")"), ("[", "]"), (openBrace, closeBrace)]

def bracketTexts : List String := ["(", ")", "[", "]", openBrace, closeBrace]

def Token.isBracket (t : Token) : Bool := bracketTexts.any t.is

/-- Tokens whose brackets match. -/
inductive Balanced : List Token → Prop
  | nil : Balanced []
  | token {t : Token} {ts : List Token} (h : t.isBracket = false) (hts : Balanced ts) :
    Balanced (t :: ts)
  | group {o c : String} {t u : Token} {us ts : List Token} (hb : (o, c) ∈ brackets)
    (ht : t.is o = true) (hus : Balanced us) (hu : u.is c = true) (hts : Balanced ts) :
    Balanced (t :: (us ++ u :: ts))

section Brackets

variable {t : Token} {ts us : List Token} {s : String} {o c : String}

/-- A token that is some other text than a bracket's is no bracket. -/
theorem Token.isBracket_of_is (h : t.is s = true) (hs : s ∉ bracketTexts) : t.isBracket = false := by
  rw [isBracket, List.any_eq_false]
  intro s' hs'
  rw [Token.is_eq_of_is h, beq_iff_eq]
  exact fun heq => hs (heq ▸ hs')

theorem Token.isBracket_of_kind (h : t.kind ≠ .punct) (h' : t.kind ≠ .keyword) :
    t.isBracket = false := by
  rw [isBracket, List.any_eq_false]
  simp [Token.is, h, h']

theorem Token.isBracket_of_isIdent (h : t.isIdent = true) : t.isBracket = false := by
  rw [Token.isIdent, beq_iff_eq] at h
  exact isBracket_of_kind (by simp [h]) (by simp [h])

theorem Token.isBracket_of_isWord (h : t.isWord s = true) : t.isBracket = false :=
  isBracket_of_isIdent (Bool.and_eq_true_iff.mp h).1

/-- A token that is no bracket has none of their texts. -/
theorem Token.is_eq_false_of_isBracket (h : t.isBracket = false) (hs : s ∈ bracketTexts) :
    t.is s = false := by
  rw [isBracket, List.any_eq_false] at h
  exact Bool.eq_false_iff.mpr (h s hs)

/-- Two balanced lists in a row are balanced. -/
theorem Balanced.append (hts : Balanced ts) (hus : Balanced us) : Balanced (ts ++ us) := by
  induction hts with
  | nil => exact hus
  | token h _ ih => exact .token h ih
  | group hb ht hvs hu _ _ ih =>
    rw [List.cons_append, List.append_assoc]
    exact .group hb ht hvs hu ih

/-- The opening brackets tell the pairs apart, and no bracket both opens and closes. -/
theorem eq_of_mem_brackets {o' c' : String} (hb : (o, c) ∈ brackets) (hb' : (o', c') ∈ brackets) :
    (o = o' → c = c') ∧ (c = c' → o = o') ∧ o ≠ c' := by
  have hall : ∀ b ∈ brackets, ∀ b' ∈ brackets,
      (b.1 = b'.1 → b.2 = b'.2) ∧ (b.2 = b'.2 → b.1 = b'.1) ∧ b.1 ≠ b'.2 := by decide
  exact hall _ hb _ hb'

theorem mem_bracketTexts (hb : (o, c) ∈ brackets) : o ∈ bracketTexts ∧ c ∈ bracketTexts := by
  have hall : ∀ b ∈ brackets, b.1 ∈ bracketTexts ∧ b.2 ∈ bracketTexts := by decide
  exact hall _ hb

/-- A bracket that is opened in a balanced list is closed in it. -/
theorem Balanced.exists_closing (h : Balanced (ts ++ t :: us)) (hb : (o, c) ∈ brackets)
    (ht : t.is o = true) :
    ∃ (vs : List Token) (u : Token) (ws : List Token),
      us = vs ++ u :: ws ∧ Balanced vs ∧ u.is c = true := by
  generalize hall : ts ++ t :: us = all at h
  induction h generalizing ts us with
  | nil => simp at hall
  | @token v vs hv _ ih =>
    cases ts with
    | nil =>
      obtain ⟨rfl, rfl⟩ := List.cons.inj hall
      rw [Token.is_eq_false_of_isBracket hv (mem_bracketTexts hb).1] at ht
      cases ht
    | cons _ ts => exact ih (List.cons.inj hall).2
  | @group o' c' v w vs ws hb' hv hvs hw hws ihvs ihws =>
    cases ts with
    | nil =>
      obtain ⟨rfl, rfl⟩ := List.cons.inj hall
      rw [Token.is_eq_of_is hv, beq_iff_eq] at ht
      subst ht
      obtain rfl := (eq_of_mem_brackets hb' hb).1 rfl
      exact ⟨vs, w, ws, rfl, hvs, hw⟩
    | cons _ ts =>
      -- The bracket stands inside the group or behind it.
      rcases List.append_eq_append_iff.mp (List.cons.inj hall).2 with
        ⟨ys, rfl, hys⟩ | ⟨ys, rfl, hys⟩
      · cases ys with
        | nil =>
          obtain ⟨rfl, -⟩ := List.cons.inj hys
          rw [Token.is_eq_of_is hw, beq_iff_eq] at ht
          exact absurd ht.symm (eq_of_mem_brackets hb hb').2.2
        | cons y ys =>
          obtain ⟨rfl, rfl⟩ := List.cons.inj hys
          obtain ⟨zs, u, rest, rfl, hzs, hu⟩ := ihvs rfl
          exact ⟨zs, u, rest ++ w :: ws, List.append_assoc zs (u :: rest) (w :: ws), hzs, hu⟩
      · cases ys with
        | nil =>
          obtain ⟨rfl, -⟩ := List.cons.inj hys
          rw [Token.is_eq_of_is hw, beq_iff_eq] at ht
          exact absurd ht.symm (eq_of_mem_brackets hb hb').2.2
        | cons y ys =>
          obtain ⟨rfl, rfl⟩ := List.cons.inj hys
          exact ihws rfl

/-- The parentheses of a balanced list do not close one before it. -/
theorem Balanced.closingParen?_eq (h : Balanced ts) (depth : Nat) :
    closingParen? (depth + 1) (ts ++ us) =
      (closingParen? (depth + 1) us).map (· + ts.length) := by
  induction h generalizing depth us with
  | nil => simp
  | token hv _ ih =>
    have hopen := Token.is_eq_false_of_isBracket hv (s := "(") (by decide)
    have hclose := Token.is_eq_false_of_isBracket hv (s := ")") (by decide)
    simp [closingParen?, hopen, hclose, ih, Function.comp_def, Nat.add_assoc]
  | @group o c v w vs ws hb hv _ hw _ ihvs ihws =>
    have hopen (t : Token) (s : String) (ht : t.is s = true) (s' : String) : t.is s' = (s == s') :=
      Token.is_eq_of_is ht s'
    have hpairs : ∀ b ∈ brackets, (b.1 = "(" ∧ b.2 = ")") ∨
        ((b.1 == "(") = false ∧ (b.1 == ")") = false ∧ (b.2 == "(") = false ∧
          (b.2 == ")") = false) := by decide
    rw [List.cons_append, List.append_assoc, List.cons_append]
    rcases hpairs _ hb with ⟨rfl, rfl⟩ | ⟨h₁, h₂, h₃, h₄⟩
    · simp [closingParen?, hv, ihvs, hw, ihws, hopen w ")" hw, Function.comp_def, Nat.add_assoc,
        Nat.add_comm, Nat.add_left_comm]
    · simp [closingParen?, hopen v _ hv, hopen w _ hw, h₁, h₂, h₃, h₄, ihvs, ihws,
        Function.comp_def, Nat.add_assoc, Nat.add_comm, Nat.add_left_comm]

/-- How many more brackets are opened than closed. -/
def surplus (ts : List Token) : Int :=
  (ts.map fun t => if brackets.any fun b => t.is b.1 then 1
    else if brackets.any fun b => t.is b.2 then -1 else 0).sum

theorem surplus_cons_of_opens (hb : (o, c) ∈ brackets) (ht : t.is o = true) :
    surplus (t :: ts) = 1 + surplus ts := by
  have hopens : (brackets.any fun b => t.is b.1) = true := List.any_eq_true.mpr ⟨_, hb, ht⟩
  simp [surplus, hopens]

theorem surplus_cons_of_closes (hb : (o, c) ∈ brackets) (ht : t.is c = true) :
    surplus (t :: ts) = -1 + surplus ts := by
  have hopens : (brackets.any fun b => t.is b.1) = false := by
    rw [List.any_eq_false]
    intro b hb' h
    rw [Token.is_eq_of_is ht, beq_iff_eq] at h
    exact (eq_of_mem_brackets hb' hb).2.2 h.symm
  have hcloses : (brackets.any fun b => t.is b.2) = true := List.any_eq_true.mpr ⟨_, hb, ht⟩
  simp [surplus, hopens, hcloses]

theorem surplus_cons_of_isBracket (h : t.isBracket = false) :
    surplus (t :: ts) = surplus ts := by
  have hnone (f : String × String → String) (hf : ∀ b ∈ brackets, f b ∈ bracketTexts) :
      (brackets.any fun b => t.is (f b)) = false := by
    rw [List.any_eq_false]
    intro b hb h'
    rw [Token.is_eq_false_of_isBracket h (hf b hb)] at h'
    cases h'
  simp [surplus, hnone (·.1) (by decide), hnone (·.2) (by decide)]

/-- What two lists leave open adds up. -/
theorem surplus_append (ts us : List Token) : surplus (ts ++ us) = surplus ts + surplus us := by
  simp [surplus]

/-- A balanced list leaves nothing open. -/
theorem Balanced.surplus_eq (h : Balanced ts) : surplus ts = 0 := by
  induction h with
  | nil => rfl
  | token h _ ih => rw [surplus_cons_of_isBracket h, ih]
  | group hb ht _ hu _ ihus ihts =>
    rw [surplus_cons_of_opens hb ht, surplus_append, surplus_cons_of_closes hb hu, ihus, ihts]
    rfl

/-- No part at the front of a balanced list closes more brackets than it opens. -/
theorem Balanced.surplus_nonneg (h : Balanced (ts ++ us)) : 0 ≤ surplus ts := by
  generalize hall : ts ++ us = all at h
  induction h generalizing ts us with
  | nil => simp [(List.append_eq_nil_iff.mp hall).1, surplus]
  | token hv _ ih =>
    cases ts with
    | nil => simp [surplus]
    | cons t ts =>
      obtain ⟨rfl, hrest⟩ := List.cons.inj hall
      rw [surplus_cons_of_isBracket hv]
      exact ih hrest
  | group hb hv hvs hw _ ihvs ihws =>
    cases ts with
    | nil => simp [surplus]
    | cons t ts =>
      obtain ⟨rfl, hrest⟩ := List.cons.inj hall
      rw [surplus_cons_of_opens hb hv]
      -- The part ends inside the group or behind it.
      rcases List.append_eq_append_iff.mp hrest with ⟨ys, hys, -⟩ | ⟨ys, rfl, hys⟩
      · have := ihvs hys.symm
        omega
      · rw [surplus_append, hvs.surplus_eq]
        cases ys with
        | nil => simp [surplus]
        | cons y ys =>
          obtain ⟨rfl, hbehind⟩ := List.cons.inj hys
          rw [surplus_cons_of_closes hb hw]
          have := ihws hbehind.symm
          omega

end Brackets

/-! ### Expressions and lambdas -/

/-- The punctuators and keywords behind which an expression may begin outside of brackets. -/
def exprOpeners : List String := [":", "?", "=>", "throw"] ++ assignmentOps

/-- A token behind which an expression may begin. -/
def Token.opensExpr (t : Token) : Bool := exprOpeners.any t.is

/-- Tokens behind which an expression may begin outside of brackets. The last ones may write the
operator `>>=`, or `=` with a `ref`. -/
inductive StartsExpr : List Token → Prop
  | nil : StartsExpr []
  | opens {ts : List Token} {t : Token} (h : t.opensExpr = true) : StartsExpr (ts ++ [t])
  | shiftAssign {ts : List Token} {t u : Token} (ht : t.is ">" = true) (hu : u.is ">=" = true)
    (h : t.touches u = true) : StartsExpr (ts ++ [t, u])
  | refAssign {ts : List Token} {t u : Token} (ht : t.is "=" = true) (hu : u.is "ref" = true) :
    StartsExpr (ts ++ [t, u])

/-- The parameters of a lambda: a name or a parenthesised group. -/
inductive LambdaParams : List Token → Prop
  | name {t : Token} (h : t.isIdent = true) : LambdaParams [t]
  | group {t u : Token} {ts : List Token} (ht : t.is "(" = true) (hts : Balanced ts)
    (hu : u.is ")" = true) : LambdaParams (t :: (ts ++ [u]))

/-- Tokens that make a lambda with an arrow behind them. -/
inductive LambdaHead : List Token → Prop
  | params {ts : List Token} (h : LambdaParams ts) : LambdaHead ts
  | modified {t : Token} {ts : List Token} (ht : t.isWord "async" = true ∨ t.is "static" = true)
    (h : LambdaParams ts) : LambdaHead (t :: ts)

theorem LambdaParams.balanced {ts : List Token} (h : LambdaParams ts) : Balanced ts := by
  cases h with
  | name h => exact .token (Token.isBracket_of_isIdent h) .nil
  | group ht hts hu => exact .group (by decide) ht hts hu .nil

/-- The head of a lambda closes the brackets that it opens. -/
theorem LambdaHead.balanced {ts : List Token} (h : LambdaHead ts) : Balanced ts := by
  cases h with
  | params h => exact h.balanced
  | modified ht h =>
    refine .token (ht.elim Token.isBracket_of_isWord fun ht => ?_) h.balanced
    exact Token.isBracket_of_is ht (by decide)

/-- A lambda is one name, or begins with a parenthesis or a modifier. -/
theorem LambdaHead.head {t : Token} {ts : List Token} (h : LambdaHead (t :: ts)) :
    ts = [] ∨ t.is "(" = true ∨ t.isWord "async" = true ∨ t.is "static" = true := by
  cases h with
  | params h =>
    cases h with
    | name h => exact .inl rfl
    | group ht hts hu => exact .inr (.inl ht)
  | modified ht h => exact .inr (.inr ht)

/-! ### Guards -/

/-- Tokens whose brackets match, and that end neither in what would be a lambda before an arrow nor
in a `!`. -/
structure EndsClearly (guard : List Token) : Prop where
  balanced : Balanced guard
  keyword_text : ∀ t ∈ guard, t.kind = .keyword → t.isBracket = false
  no_forgiveness : ∀ t ∈ guard.getLast?, t.is "!" = false
  no_lambda : ∀ ts us, guard = ts ++ us → StartsExpr ts → ¬LambdaHead us

/-- A guard without the tokens behind which an expression may begin need not be looked into. -/
theorem not_lambdaHead_of_all {guard : List Token}
    (hall : guard.all fun t => !(t.opensExpr || t.is ">=" || t.is "ref"))
    (hhead : ¬LambdaHead guard) :
    ∀ ts us, guard = ts ++ us → StartsExpr ts → ¬LambdaHead us := by
  rintro ts us rfl hstarts
  have hnot {t : Token} (ht : t ∈ ts ++ us) :
      (t.opensExpr || t.is ">=" || t.is "ref") = false := by
    simpa using List.all_eq_true.mp hall t ht
  cases hstarts with
  | nil => exact hhead
  | @opens ts t h =>
    have := hnot (t := t) (by simp)
    simp [h] at this
  | @shiftAssign ts t u ht hu h =>
    have := hnot (t := u) (by simp)
    simp [hu] at this
  | @refAssign ts t u ht hu =>
    have := hnot (t := u) (by simp)
    simp [hu] at this

/-- A guard with a semicolon or an arrow behind it, in two texts that differ in this token only. -/
structure Endings where
  input : Input
  /-- The end of the token before the guard. -/
  lastEnd : Nat
  guard : List Token
  semi : Token
  arrow : Token
  rest : List Token
  clear : EndsClearly guard
  semi_isPunct : semi.IsPunct ";"
  arrow_isPunct : arrow.IsPunct "=>"
  start_eq : arrow.span.start = semi.span.start

namespace Endings

variable (L : Endings)

/-- The number of tokens before the two endings. -/
def size : Nat := L.guard.length

/-- The token that ends the guard: the arrow or the semicolon. -/
def mark (arrow : Bool) : Token := if arrow then L.arrow else L.semi

/-- The tokens of a text. -/
def tokens (w : Bool) : List Token := L.guard ++ L.mark w :: L.rest

/-- The token of a text at an index. -/
def token (w : Bool) (j : Nat) : Token := ahead L.input (L.tokens w) j

/-- The token at an index of the text with the semicolon. -/
def lexeme (j : Nat) : Token := L.token false j

/-- Where the token before an index ends. -/
def behind : Nat → Nat
  | 0 => L.lastEnd
  | j + 1 => (L.lexeme j).span.stop

/-- The cursor of a parser that has consumed `j` tokens. -/
def cursor (w : Bool) (j : Nat) : Grammar.Cursor := ⟨(L.tokens w).drop j, L.behind j⟩

/-- The brackets between two indices of the guard match. -/
def Closed (i j : Nat) : Prop :=
  j ≤ L.size ∧ ∃ ts, Balanced ts ∧ L.guard.drop i = ts ++ L.guard.drop j

/-- `n` tokens ahead of index `j` stands the token at index `j + n`. -/
theorem ahead_cursor (w : Bool) (j n : Nat) :
    ahead L.input (L.cursor w j).rest n = L.token w (j + n) := by
  rw [cursor, ahead, List.getElem?_drop]
  rfl

/-- Apart from the ending, the tokens of both texts are the same. -/
theorem token_of_ne (w : Bool) {j : Nat} (h : j ≠ L.size) : L.token w j = L.lexeme j := by
  have hne : j < L.size ∨ L.size < j := Nat.lt_or_gt_of_ne h
  simp only [lexeme, token, ahead, tokens]
  rcases hne with hlt | hlt
  · rw [List.getElem?_append_left hlt, List.getElem?_append_left hlt]
  · obtain ⟨k, rfl⟩ : ∃ k, j = L.size + (k + 1) := ⟨j - L.size - 1, by omega⟩
    rw [size, List.getElem?_append_right (Nat.le_add_right _ _),
      List.getElem?_append_right (Nat.le_add_right _ _), Nat.add_sub_cancel_left]
    rfl

/-- Directly behind the guard stands its ending. -/
theorem token_size (w : Bool) : L.token w L.size = L.mark w := by
  rw [token, ahead, tokens, size, List.getElem?_append_right (Nat.le_refl _), Nat.sub_self]
  rfl

theorem lexeme_size : L.lexeme L.size = L.semi := L.token_size false

variable {L}

section Places

variable {i j k : Nat} {s : String}

theorem drop_eq_cons (hj : j < L.size) :
    L.guard.drop j = L.lexeme j :: L.guard.drop (j + 1) := by
  rw [List.drop_eq_getElem_cons hj, lexeme, token, ahead, tokens, List.getElem?_append_left hj,
    List.getElem?_eq_getElem hj]
  rfl

theorem lexeme_mem (hj : j < L.size) : L.lexeme j ∈ L.guard :=
  List.mem_of_mem_drop (drop_eq_cons hj ▸ List.mem_cons_self)

/-- What is the same of the two endings is the same of all tokens of the two texts. -/
theorem token_congr {β : Type} {f : Token → β} (h : f L.arrow = f L.semi) (w : Bool) (j : Nat) :
    f (L.token w j) = f (L.lexeme j) := by
  by_cases hj : j = L.size
  · subst hj
    rw [L.token_size, L.lexeme_size]
    cases w with
    | false => rfl
    | true => exact h
  · rw [L.token_of_ne w hj]

theorem length_rest (w : Bool) (j : Nat) :
    (L.cursor w j).rest.length = L.size + 1 + L.rest.length - j := by
  rw [cursor, List.length_drop, tokens, List.length_append, List.length_cons, size]
  omega

/-- Another token than a semicolon stands in the guard. -/
theorem lt_size_of_ne (hj : j ≤ L.size) (h : L.lexeme j ≠ L.semi) : j < L.size :=
  Nat.lt_of_le_of_ne hj fun heq => h (by rw [heq, L.lexeme_size])

/-- A token with another text than `;` stands inside the guard. -/
theorem lt_size_of_is (hj : j ≤ L.size) (h : (L.lexeme j).is s = true) (hs : s ≠ ";") :
    j < L.size := by
  refine lt_size_of_ne hj fun heq => hs ?_
  rw [heq, L.semi_isPunct.is_eq, beq_iff_eq] at h
  exact h.symm

theorem lt_size_of_kind (hj : j ≤ L.size) (h : (L.lexeme j).kind ≠ .punct) : j < L.size :=
  lt_size_of_ne hj fun heq => h (by rw [heq, L.semi_isPunct.kind])

theorem lt_size_of_isIdent (hj : j ≤ L.size) (h : (L.lexeme j).isIdent = true) : j < L.size :=
  lt_size_of_kind hj fun hk => by simp [Token.isIdent, hk] at h

theorem lt_size_of_isWord (hj : j ≤ L.size) (h : (L.lexeme j).isWord s = true) : j < L.size :=
  lt_size_of_kind hj fun hk => by simp [Token.isWord, hk] at h

/-! ### Closed parts of a guard -/

theorem Closed.le (h : L.Closed i j) : j ≤ L.size := h.1

theorem Closed.index_le (h : L.Closed i j) (hi : i ≤ L.size) : i ≤ j := by
  obtain ⟨hj, ts, -, hdrop⟩ := h
  have hlength := congrArg List.length hdrop
  rw [List.length_append, List.length_drop, List.length_drop] at hlength
  rw [size] at hi hj
  omega

theorem Closed.refl (hj : j ≤ L.size) : L.Closed j j := ⟨hj, [], .nil, rfl⟩

/-- A token that is no bracket may be added to a part whose brackets match. -/
theorem Closed.succ (h : L.Closed i j) (hj : j < L.size) (hb : (L.lexeme j).isBracket = false) :
    L.Closed i (j + 1) := by
  obtain ⟨-, ts, hts, hdrop⟩ := h
  refine ⟨hj, ts ++ [L.lexeme j], hts.append (.token hb .nil), ?_⟩
  rw [hdrop, drop_eq_cons hj, List.append_assoc]
  rfl

/-- A group in brackets may be added to a part whose brackets match. -/
theorem Closed.group {o c : String} (h : L.Closed i j) (hj : j < L.size) (hb : (o, c) ∈ brackets)
    (hopening : (L.lexeme j).is o = true) (hk : L.Closed (j + 1) k) (hlt : k < L.size)
    (hclosing : (L.lexeme k).is c = true) : L.Closed i (k + 1) := by
  obtain ⟨-, ts, hts, hdrop⟩ := h
  obtain ⟨-, us, hus, hdrop'⟩ := hk
  refine ⟨hlt, ts ++ L.lexeme j :: (us ++ [L.lexeme k]),
    hts.append (.group hb hopening hus hclosing .nil), ?_⟩
  rw [hdrop, drop_eq_cons hj, hdrop', drop_eq_cons hlt]
  simp

/-- A bracket of a guard is closed in the guard. -/
theorem exists_closing {o c : String} (hj : j < L.size) (hb : (o, c) ∈ brackets)
    (h : (L.lexeme j).is o = true) :
    ∃ k, k < L.size ∧ L.Closed (j + 1) k ∧ (L.lexeme k).is c = true := by
  have hguard : Balanced (L.guard.take j ++ L.lexeme j :: L.guard.drop (j + 1)) := by
    rw [← drop_eq_cons hj, List.take_append_drop]
    exact L.clear.balanced
  obtain ⟨ts, u, us, hdrop, hts, hu⟩ := hguard.exists_closing hb h
  have hlength : (L.guard.drop (j + 1)).length = ts.length + us.length + 1 := by
    rw [hdrop, List.length_append, List.length_cons]
    omega
  rw [List.length_drop] at hlength
  have hlt : j + 1 + ts.length < L.size := by
    rw [size]
    omega
  have hdrop' : L.guard.drop (j + 1 + ts.length) = u :: us := by
    rw [← List.drop_drop, hdrop, List.drop_left]
  have hlexeme : L.lexeme (j + 1 + ts.length) = u :=
    (List.cons.inj ((drop_eq_cons hlt).symm.trans hdrop')).1
  exact ⟨j + 1 + ts.length, hlt, ⟨Nat.le_of_lt hlt, ts, hts, by rw [hdrop', hdrop]⟩,
    by rw [hlexeme]; exact hu⟩

variable (L) in
/-- A bracket that is open at an index is closed in the guard. -/
def Inner (i : Nat) : Prop :=
  ∃ m o c, m < L.size ∧ (o, c) ∈ brackets ∧ L.Closed i m ∧ (L.lexeme m).is c = true

/-- Inside of brackets, the ending is not reached. -/
theorem Inner.lt_size (h : L.Inner i) (hj : L.Closed i j) : j < L.size := by
  obtain ⟨m, o, c, hm, hb, ⟨-, ts, hts, hdrop⟩, hcloses⟩ := h
  obtain ⟨hle, us, hus, hdrop'⟩ := hj
  refine Nat.lt_of_le_of_ne hle ?_
  rintro rfl
  rw [hdrop', size, List.drop_length, List.append_nil, drop_eq_cons hm] at hdrop
  have hparts : Balanced ((ts ++ [L.lexeme m]) ++ L.guard.drop (m + 1)) := by
    rw [List.append_assoc]
    exact hdrop ▸ hus
  have hsurplus := hparts.surplus_nonneg
  rw [surplus_append, hts.surplus_eq, surplus_cons_of_closes hb hcloses] at hsurplus
  exact absurd hsurplus (by decide)

variable (L) in
/-- An expression may begin at an index of the guard. -/
def Starts (i j : Nat) : Prop := StartsExpr (L.guard.take j) ∨ L.Inner i

theorem starts_zero : L.Starts i 0 := .inl .nil

/-- Where an expression begins, no lambda makes up the rest of a guard. -/
theorem Starts.not_lambdaHead (h : L.Starts i j) (hj : L.Closed i j) :
    ¬LambdaHead (L.guard.drop j) := by
  rcases h with h | h
  · exact L.clear.no_lambda _ _ (List.take_append_drop j L.guard).symm h
  · intro hhead
    -- The group would be closed behind the last token.
    obtain ⟨-, ts, hts, hdrop⟩ := hj
    refine Nat.lt_irrefl _ (h.lt_size ⟨Nat.le_refl _, ts ++ L.guard.drop j,
      hts.append hhead.balanced, ?_⟩)
    rw [size, List.drop_length, List.append_nil, hdrop]

theorem take_succ (hj : j < L.size) : L.guard.take (j + 1) = L.guard.take j ++ [L.lexeme j] := by
  have hget : L.guard[j]? = some (L.lexeme j) := by
    rw [List.getElem?_eq_some_iff]
    exact ⟨hj, (List.cons.inj ((List.drop_eq_getElem_cons hj).symm.trans (drop_eq_cons hj))).1⟩
  rw [List.take_add_one, hget]
  rfl

/-- An expression may begin behind a token that it can follow. -/
theorem starts_of_is (hj : j ≤ L.size) (h : (L.lexeme j).is s = true) (hs : s ∈ exprOpeners) :
    L.Starts i (j + 1) := by
  have hne : s ≠ ";" := by
    rintro rfl
    revert hs
    decide
  rw [Starts, take_succ (lt_size_of_is hj h hne)]
  exact .inl (.opens (List.any_eq_true.mpr ⟨s, hs, h⟩))

end Places

/-! ### Agreement -/

section Agreement

variable {α β : Type} {p : Parser α} {f : α → Parser β} {i j k l n : Nat} {s : String}

variable (L) in
/-- A parser that starts at the token at `j` reads both texts alike: it yields one value and reaches
one index, which leaves the brackets from `i` on closed, or it stops at a fault in both texts. -/
def Agrees (i : Nat) (p : Parser α) (j : Nat) : Prop :=
  (∃ a k, L.Closed i k ∧ ∀ w, p L.input (L.cursor w j) = .ok (a, L.cursor w k)) ∨
    ∃ b, ∀ w, ∃ e, p L.input (L.cursor w j) = .error e ∧ e.cause.isEndless = b

/-- Two parsers in a row read both texts alike if the second one does so from wherever the
first one stops. -/
theorem Agrees.bindRun {i' : Nat} (hp : L.Agrees i' p j)
    (hf : ∀ a k, L.Closed i' k → (∀ w, p L.input (L.cursor w j) = .ok (a, L.cursor w k)) →
      L.Agrees i (f a) k) : L.Agrees i (p >>= f) j := by
  simp only [Agrees, Layouts.run_bind]
  rcases hp with ⟨a, k, hk, hrun⟩ | ⟨b, hrun⟩
  · simp only [hrun]
    exact hf a k hk hrun
  · refine .inr ⟨b, fun w => ?_⟩
    obtain ⟨e, he, hb⟩ := hrun w
    exact ⟨e, by rw [he]; rfl, hb⟩

/-- Parsers that read both texts alike may be put one after the other. -/
theorem Agrees.bind {i' : Nat} (hp : L.Agrees i' p j)
    (hf : ∀ a k, L.Closed i' k → L.Agrees i (f a) k) : L.Agrees i (p >>= f) j :=
  hp.bindRun fun a k hk _ => hf a k hk

theorem agrees_iff_bind_pure : L.Agrees i p j ↔ L.Agrees i (p >>= Pure.pure) j := by
  rw [bind_pure]

/-- A step whose outcome is known. -/
theorem agrees_bind_of_run {a : α}
    (h : ∀ w, p L.input (L.cursor w j) = .ok (a, L.cursor w k)) :
    L.Agrees i (p >>= f) j ↔ L.Agrees i (f a) k := by
  simp only [Agrees, run_bind_of_ok (h _)]

/-- A parser that reads nothing reads both texts alike. -/
theorem Agrees.pure {a : α} (hj : L.Closed i j) : L.Agrees i (Pure.pure a) j :=
  .inl ⟨a, j, hj, fun _ => rfl⟩

/-- Of a choice, the side that is taken has to read both texts alike. -/
@[simp] theorem agrees_ite {c : Prop} [Decidable c] {q : Parser α} :
    L.Agrees i (if c then p else q) j ↔ (c → L.Agrees i p j) ∧ (¬c → L.Agrees i q j) := by
  by_cases h : c <;> simp [h]

@[simp] theorem agrees_discard {g : Unit → Parser β} :
    L.Agrees i (discard p >>= g) j ↔ L.Agrees i (p >>= fun _ => g ()) j := by
  rw [Layouts.discard_bind]

theorem Agrees.discard (h : L.Agrees i p j) : L.Agrees i (Functor.discard p) j := by
  rw [agrees_iff_bind_pure, agrees_discard]
  exact h.bind fun _ _ => .pure

/-! ### Looks at the tokens ahead -/

/-- A question about a token that does not tell the two endings apart. -/
theorem agrees_peek {f : Token → Parser β} (h : f L.arrow = f L.semi) :
    L.Agrees i (peek n >>= f) j ↔ L.Agrees i (f (L.lexeme (j + n))) j := by
  simp only [Agrees, run_peek_bind, ahead_cursor, token_congr h]

/-- A question that tells the two endings apart may be asked where the answer does not matter. -/
theorem agrees_peek_of_congr {f : Token → Parser β}
    (h : ∀ w, f (L.token w (j + n)) = f (L.lexeme (j + n))) :
    L.Agrees i (peek n >>= f) j ↔ L.Agrees i (f (L.lexeme (j + n))) j := by
  simp only [Agrees, run_peek_bind, ahead_cursor, h]

theorem agrees_current {f : Token → Parser β} (h : f L.arrow = f L.semi) :
    L.Agrees i (current >>= f) j ↔ L.Agrees i (f (L.lexeme j)) j :=
  agrees_peek h

@[simp] theorem agrees_offset {f : Nat → Parser β} :
    L.Agrees i (offset >>= f) j ↔ L.Agrees i (f (L.lexeme j).span.start) j := by
  have hstart (w : Bool) : (L.token w j).span.start = (L.lexeme j).span.start :=
    token_congr (f := fun t => t.span.start) L.start_eq w j
  simp only [Agrees, run_offset_bind, ahead_cursor, Nat.add_zero, hstart]

/-- Before the ending, any question may be asked about the current token. -/
theorem agrees_current_of_lt {f : Token → Parser β} (hj : j < L.size) :
    L.Agrees i (current >>= f) j ↔ L.Agrees i (f (L.lexeme j)) j :=
  agrees_peek_of_congr fun w => congrArg f (L.token_of_ne w (Nat.ne_of_lt hj))

/-- The question for a text is answered alike, unless it asks for one of the endings. -/
theorem is_eq (hs : s ≠ ";") (hs' : s ≠ "=>") (w : Bool) (j : Nat) :
    (L.token w j).is s = (L.lexeme j).is s :=
  token_congr (f := fun t => t.is s) (by
    rw [L.arrow_isPunct.is_eq, L.semi_isPunct.is_eq, beq_false_of_ne hs.symm,
      beq_false_of_ne hs'.symm]) w j

@[simp] theorem agrees_peekIs {f : Bool → Parser β} (hs : s ≠ ";") (hs' : s ≠ "=>") :
    L.Agrees i (peekIs n s >>= f) j ↔ L.Agrees i (f ((L.lexeme (j + n)).is s)) j := by
  simp only [Agrees, run_peekIs_bind, ahead_cursor, is_eq hs hs']

theorem agrees_peekIs_of_congr {f : Bool → Parser β}
    (h : ∀ w, f ((L.token w (j + n)).is s) = f ((L.lexeme (j + n)).is s)) :
    L.Agrees i (peekIs n s >>= f) j ↔ L.Agrees i (f ((L.lexeme (j + n)).is s)) j := by
  simp only [Agrees, run_peekIs_bind, ahead_cursor, h]

theorem agrees_peekIs_of_lt {f : Bool → Parser β} (hj : j + n < L.size) :
    L.Agrees i (peekIs n s >>= f) j ↔ L.Agrees i (f ((L.lexeme (j + n)).is s)) j :=
  agrees_peekIs_of_congr fun w => by rw [L.token_of_ne w (Nat.ne_of_lt hj)]

theorem agrees_is_of_lt {f : Bool → Parser β} (hj : j < L.size) :
    L.Agrees i (is s >>= f) j ↔ L.Agrees i (f ((L.lexeme j).is s)) j :=
  agrees_peekIs_of_lt hj

theorem agrees_isNot_of_lt {f : Bool → Parser β} (hj : j < L.size) :
    L.Agrees i (isNot s >>= f) j ↔ L.Agrees i (f !(L.lexeme j).is s) j := by
  rw [isNot, bind_assoc, agrees_is_of_lt hj, pure_bind]

@[simp] theorem agrees_is {f : Bool → Parser β} (hs : s ≠ ";") (hs' : s ≠ "=>") :
    L.Agrees i (is s >>= f) j ↔ L.Agrees i (f ((L.lexeme j).is s)) j :=
  agrees_peekIs hs hs'

@[simp] theorem agrees_isNot {f : Bool → Parser β} (hs : s ≠ ";") (hs' : s ≠ "=>") :
    L.Agrees i (isNot s >>= f) j ↔ L.Agrees i (f !(L.lexeme j).is s) j := by
  simp [isNot, hs, hs']

theorem agrees_isOneOf {f : Bool → Parser β} (ss : List String) (hs : ";" ∉ ss)
    (hs' : "=>" ∉ ss) :
    L.Agrees i (isOneOf ss >>= f) j ↔ L.Agrees i (f (ss.any (L.lexeme j).is)) j := by
  have hany (w : Bool) : ss.any (L.token w j).is = ss.any (L.lexeme j).is := by
    rw [Bool.eq_iff_iff, List.any_eq_true, List.any_eq_true]
    refine exists_congr fun s => and_congr_right fun h => ?_
    rw [is_eq (fun heq => hs (heq ▸ h)) (fun heq => hs' (heq ▸ h))]
  simp only [Agrees, run_isOneOf_bind, ahead_cursor, Nat.add_zero, hany]

/-- Both endings are punctuators. -/
theorem kind_eq (w : Bool) (j : Nat) : (L.token w j).kind = (L.lexeme j).kind :=
  token_congr (by rw [L.arrow_isPunct.kind, L.semi_isPunct.kind]) w j

@[simp] theorem agrees_isWord {f : Bool → Parser β} :
    L.Agrees i (isWord s >>= f) j ↔ L.Agrees i (f ((L.lexeme j).isWord s)) j := by
  have hword (w : Bool) : (L.token w j).isWord s = (L.lexeme j).isWord s :=
    token_congr (f := fun t => t.isWord s)
      (by rw [Token.isWord, Token.isWord, L.arrow_isPunct.kind, L.semi_isPunct.kind]; rfl) w j
  simp only [Agrees, run_isWord_bind, ahead_cursor, Nat.add_zero, hword]

@[simp] theorem agrees_peekIdent {f : Bool → Parser β} :
    L.Agrees i (peekIdent n >>= f) j ↔ L.Agrees i (f (L.lexeme (j + n)).isIdent) j := by
  simp only [Agrees, run_peekIdent_bind, ahead_cursor, Token.isIdent, kind_eq]

@[simp] theorem agrees_isIdent {f : Bool → Parser β} :
    L.Agrees i (isIdent >>= f) j ↔ L.Agrees i (f (L.lexeme j).isIdent) j :=
  agrees_peekIdent

@[simp] theorem agrees_atEnd {f : Bool → Parser β} :
    L.Agrees i (atEnd >>= f) j ↔ L.Agrees i (f ((L.lexeme j).kind == .eof)) j := by
  have hrun (w : Bool) : (atEnd >>= f) L.input (L.cursor w j) =
      f ((ahead L.input (L.cursor w j).rest 0).kind == .eof) L.input (L.cursor w j) := rfl
  simp only [Agrees, hrun, ahead_cursor, Nat.add_zero, kind_eq]

theorem touches_eq (w : Bool) (hj : j ≠ L.size) :
    (L.token w j).touches (L.token w (j + 1)) = (L.lexeme j).touches (L.lexeme (j + 1)) := by
  have hstart : (L.token w (j + 1)).span.start = (L.lexeme (j + 1)).span.start :=
    token_congr (f := fun t => t.span.start) L.start_eq w (j + 1)
  rw [Token.touches, hstart, L.token_of_ne w hj, Token.touches]

/-- Where the endings stop is not the same, so it must not matter. -/
theorem agrees_touchesNext {f : Bool → Parser β} (h : j = L.size → f true = f false) :
    L.Agrees i (touchesNext >>= f) j ↔
      L.Agrees i (f ((L.lexeme j).touches (L.lexeme (j + 1)))) j := by
  have hrun (w : Bool) : (touchesNext >>= f) L.input (L.cursor w j) =
      f ((L.lexeme j).touches (L.lexeme (j + 1))) L.input (L.cursor w j) := by
    have htokens : (touchesNext >>= f) L.input (L.cursor w j) =
        f ((L.token w j).touches (L.token w (j + 1))) L.input (L.cursor w j) := by
      rw [run_touchesNext_bind, ahead_cursor, ahead_cursor]
      rfl
    by_cases hj : j = L.size
    · have hsame (b b' : Bool) : f b = f b' := by cases b <;> cases b' <;> simp [h hj]
      rw [htokens, hsame]
    · rw [htokens, touches_eq w hj]
  simp only [Agrees, hrun]

theorem agrees_nextTouches {f : Bool → Parser β} (h : j + 1 = L.size → f true = f false) :
    L.Agrees i (nextTouches >>= f) j ↔
      L.Agrees i (f ((L.lexeme (j + 1)).touches (L.lexeme (j + 2)))) j := by
  have hrun (w : Bool) : (nextTouches >>= f) L.input (L.cursor w j) =
      f ((L.lexeme (j + 1)).touches (L.lexeme (j + 2))) L.input (L.cursor w j) := by
    have htokens : (nextTouches >>= f) L.input (L.cursor w j) =
        f ((L.token w (j + 1)).touches (L.token w (j + 2))) L.input (L.cursor w j) := by
      rw [run_nextTouches_bind, ahead_cursor, ahead_cursor]
      rfl
    by_cases hj : j + 1 = L.size
    · have hsame (b b' : Bool) : f b = f b' := by cases b <;> cases b' <;> simp [h hj]
      rw [htokens, hsame]
    · rw [htokens, touches_eq w hj]
  simp only [Agrees, hrun]

@[simp] theorem agrees_spanFrom {start : Nat} {f : Span → Parser β} :
    L.Agrees i (spanFrom start >>= f) j ↔ L.Agrees i (f ⟨start, L.behind j⟩) j :=
  agrees_bind_of_run fun _ => rfl

/-- What was read is put together with the place where it stands. -/
theorem Agrees.spanned {start : Nat} {f : Span → α} (hj : L.Closed i j) :
    L.Agrees i (do return f (← Grammar.spanFrom start)) j :=
  agrees_spanFrom.mpr (.pure hj)

theorem agrees_get {f : Grammar.Cursor → Parser β} {q : Parser β}
    (h : ∀ w, f (L.cursor w j) = q) : L.Agrees i (get >>= f) j ↔ L.Agrees i q j := by
  simp only [Agrees, run_get_bind, h]

theorem agrees_tokensLeft {f : Nat → Parser β} :
    L.Agrees i (tokensLeft >>= f) j ↔ L.Agrees i (f (L.size + 1 + L.rest.length - j)) j := by
  simp only [Agrees, run_tokensLeft_bind, length_rest]

theorem agrees_bound {f : Nat → Parser β} :
    L.Agrees i (bound >>= f) j ↔ L.Agrees i (f (L.size + 1 + L.rest.length - j + 1)) j := by
  simp only [Agrees, run_bound_bind, length_rest]

/-! ### Tokens that are consumed -/

/-- Inside the guard, the same token is consumed in both texts. -/
theorem run_advance (w : Bool) (hj : j < L.size) :
    advance L.input (L.cursor w j) = .ok (L.lexeme j, L.cursor w (j + 1)) := by
  have hlt : j < (L.tokens w).length := by
    rw [tokens, List.length_append]
    exact Nat.lt_add_right _ hj
  have hcons : (L.tokens w).drop j = L.token w j :: (L.tokens w).drop (j + 1) := by
    rw [token, ahead, List.getElem?_eq_getElem hlt]
    exact List.drop_eq_getElem_cons hlt
  rw [cursor, hcons, L.token_of_ne w (Nat.ne_of_lt hj)]
  rfl

/-- A parser may consume any token of the guard. -/
theorem agrees_advance {f : Token → Parser β} (hj : j < L.size) :
    L.Agrees i (advance >>= f) j ↔ L.Agrees i (f (L.lexeme j)) (j + 1) :=
  agrees_bind_of_run fun w => run_advance w hj

theorem agrees_advanceBy {f : Unit → Parser β} (h : j + n ≤ L.size) :
    L.Agrees i (advanceBy n >>= f) j ↔ L.Agrees i (f ()) (j + n) := by
  induction n generalizing j with
  | zero => rfl
  | succ n ih =>
    rw [advanceBy, bind_assoc, agrees_discard, agrees_advance (by omega), ih (by omega),
      Nat.add_assoc, Nat.add_comm 1 n]

/-- A token other than the two endings that is no bracket. -/
structure Plain (s : String) : Prop where
  ne_semi : s ≠ ";"
  ne_arrow : s ≠ "=>"
  notMem : s ∉ bracketTexts

instance (s : String) : Decidable (Plain s) :=
  decidable_of_iff (s ≠ ";" ∧ s ≠ "=>" ∧ s ∉ bracketTexts)
    ⟨fun h => ⟨h.1, h.2.1, h.2.2⟩, fun h => ⟨h.ne_semi, h.ne_arrow, h.notMem⟩⟩

/-- A plain token may be added to a part whose brackets match. -/
theorem Closed.succ_of_is (hj : L.Closed i j) (h : (L.lexeme j).is s = true) (hs : Plain s) :
    L.Closed i (j + 1) :=
  hj.succ (lt_size_of_is hj.le h hs.ne_semi) (Token.isBracket_of_is h hs.notMem)

/-- A plain token may be consumed, and the brackets in front of it still match. -/
theorem Agrees.advanceIs {f : Token → Parser β} (hj : L.Closed l j) (h : (L.lexeme j).is s = true)
    (hs : Plain s) (hf : L.Closed l (j + 1) → L.Agrees i (f (L.lexeme j)) (j + 1)) :
    L.Agrees i (advance >>= f) j :=
  (agrees_advance (lt_size_of_is hj.le h hs.ne_semi)).mpr (hf (hj.succ_of_is h hs))

theorem Agrees.advanceOneOf {f : Token → Parser β} {ss : List String} (hj : L.Closed l j)
    (h : ss.any (L.lexeme j).is = true) (hss : ∀ s ∈ ss, Plain s)
    (hf : L.Closed l (j + 1) → L.Agrees i (f (L.lexeme j)) (j + 1)) :
    L.Agrees i (advance >>= f) j := by
  obtain ⟨s, hmem, h⟩ := List.any_eq_true.mp h
  exact .advanceIs hj h (hss s hmem) hf

theorem Agrees.advanceIdent {f : Token → Parser β} (hj : L.Closed l j)
    (h : (L.lexeme j).isIdent = true)
    (hf : L.Closed l (j + 1) → L.Agrees i (f (L.lexeme j)) (j + 1)) :
    L.Agrees i (advance >>= f) j := by
  have hlt := lt_size_of_isIdent hj.le h
  exact (agrees_advance hlt).mpr (hf (hj.succ hlt (Token.isBracket_of_isIdent h)))

theorem Agrees.advanceWord {f : Token → Parser β} (hj : L.Closed l j)
    (h : (L.lexeme j).isWord s = true)
    (hf : L.Closed l (j + 1) → L.Agrees i (f (L.lexeme j)) (j + 1)) :
    L.Agrees i (advance >>= f) j :=
  .advanceIdent hj (Bool.and_eq_true_iff.mp h).1 hf

theorem Closed.succ_of_arrow (hj : L.Closed i j) (h : (L.lexeme j).is "=>" = true) :
    L.Closed i (j + 1) :=
  hj.succ (lt_size_of_is hj.le h (by decide)) (Token.isBracket_of_is h (by decide))

/-- A parser that fails reads both texts alike. -/
@[simp] theorem agrees_fail {cause : SyntaxError.Cause} : L.Agrees i (fail cause : Parser α) j :=
  .inr ⟨cause.isEndless, fun _ => ⟨_, run_fail, rfl⟩⟩

@[simp] theorem agrees_fail_bind {cause : SyntaxError.Cause} : L.Agrees i (fail cause >>= f) j :=
  .inr ⟨cause.isEndless, fun _ => ⟨_, run_fail_bind, rfl⟩⟩

@[simp] theorem agrees_failAt {cause : Token → SyntaxError.Cause}
    (h : ∀ t, (cause t).isEndless = false) : L.Agrees i (failAt cause : Parser α) j :=
  .inr ⟨false, fun _ => ⟨_, run_failAt, h _⟩⟩

theorem agrees_failAt_bind {cause : Token → SyntaxError.Cause}
    (h : ∀ t, (cause t).isEndless = false) : L.Agrees i (failAt cause >>= f) j :=
  .inr ⟨false, fun _ => ⟨_, run_failAt_bind, h _⟩⟩

/-- An optional plain token is consumed in both texts or in none. -/
theorem Agrees.accept {f : Bool → Parser β} (hj : L.Closed l j) (hs : Plain s)
    (htrue : L.Closed l (j + 1) → (L.lexeme j).is s = true → L.Agrees i (f true) (j + 1))
    (hfalse : L.Agrees i (f false) j) : L.Agrees i (Grammar.accept s >>= f) j := by
  rw [Grammar.accept, Layouts.acceptIf_bind, agrees_is hs.ne_semi hs.ne_arrow, agrees_ite]
  exact ⟨fun h => .advanceIs hj h hs fun hj => htrue hj h, fun _ => hfalse⟩

theorem Agrees.acceptWord {f : Bool → Parser β} (hj : L.Closed l j)
    (htrue : L.Closed l (j + 1) → L.Agrees i (f true) (j + 1))
    (hfalse : L.Agrees i (f false) j) : L.Agrees i (Grammar.acceptWord s >>= f) j := by
  rw [Grammar.acceptWord, Layouts.acceptIf_bind, agrees_isWord, agrees_ite]
  exact ⟨fun h => .advanceWord hj h htrue, fun _ => hfalse⟩

/-- A token is expected that does not tell the two endings apart. -/
theorem agrees_expect {f : Token → Parser β} (hs : s ≠ ";") (hs' : s ≠ "=>") :
    L.Agrees i (Grammar.expect s >>= f) j ↔
      ((L.lexeme j).is s = true → L.Agrees i (advance >>= f) j) := by
  rw [Grammar.expect, bind_assoc, agrees_is hs hs', Layouts.ite_bind, agrees_ite]
  exact and_iff_left fun _ => agrees_failAt_bind fun _ => rfl

/-- A plain token that has to be there is consumed in both texts or missed in both. -/
theorem Agrees.expect {f : Unit → Parser β} (hj : L.Closed l j) (hs : Plain s)
    (h : L.Closed l (j + 1) → (L.lexeme j).is s = true → L.Agrees i (f ()) (j + 1)) :
    L.Agrees i (Functor.discard (Grammar.expect s) >>= f) j := by
  rw [agrees_discard, agrees_expect hs.ne_semi hs.ne_arrow]
  exact fun hs' => .advanceIs hj hs' hs fun hj => h hj hs'

/-- Before the ending, any token may be expected. -/
theorem Agrees.expectOf {f : Unit → Parser β} (hlt : j < L.size) (hj : L.Closed l j)
    (hs : s ∉ bracketTexts) (h : L.Closed l (j + 1) → L.Agrees i (f ()) (j + 1)) :
    L.Agrees i (Functor.discard (Grammar.expect s) >>= f) j := by
  rw [agrees_discard, Grammar.expect, bind_assoc, agrees_is_of_lt hlt, Layouts.ite_bind, agrees_ite]
  refine ⟨fun his => ?_, fun _ => agrees_failAt_bind fun _ => rfl⟩
  exact (agrees_advance hlt).mpr (h (hj.succ hlt (Token.isBracket_of_is his hs)))

/-- A name that has to be there is consumed in both texts or missed in both. -/
theorem Agrees.expectIdent {f : Token → Parser β} (hj : L.Closed l j)
    (h : L.Closed l (j + 1) → L.Agrees i (f (L.lexeme j)) (j + 1)) :
    L.Agrees i (Grammar.expectIdent >>= f) j := by
  rw [Grammar.expectIdent, bind_assoc, agrees_isIdent, Layouts.ite_bind, agrees_ite]
  exact ⟨fun hident => .advanceIdent hj hident h, fun _ => agrees_failAt_bind fun _ => rfl⟩

theorem Agrees.identText (hj : L.Closed i j) : L.Agrees i Grammar.identText j :=
  .expectIdent hj .pure

theorem Agrees.optionalIdent (hj : L.Closed i j) : L.Agrees i Grammar.optionalIdent j := by
  rw [Grammar.optionalIdent, agrees_isIdent, agrees_ite]
  exact ⟨fun h => .advanceIdent hj h .pure, fun _ => .pure hj⟩

/-! ### Bracketed groups -/

variable {o c : String}

theorem ne_of_mem_brackets (hb : (o, c) ∈ brackets) :
    (o ≠ ";" ∧ o ≠ "=>") ∧ (c ≠ ";" ∧ c ≠ "=>") := by
  have hall : ∀ b ∈ brackets, (b.1 ≠ ";" ∧ b.1 ≠ "=>") ∧ (b.2 ≠ ";" ∧ b.2 ≠ "=>") := by decide
  exact hall _ hb

variable (L) in
/-- A bracket that stands before the token at `k` is open there, and what was read behind it is
closed. -/
structure Open (o c : String) (i j k : Nat) : Prop where
  mem : (o, c) ∈ brackets
  outside : L.Closed i j
  opens : (L.lexeme j).is o = true
  inside : L.Closed (j + 1) k

/-- The opening bracket of a group stands inside the guard. -/
theorem Open.lt_size (h : L.Open o c i j k) : j < L.size :=
  lt_size_of_is h.outside.le h.opens (ne_of_mem_brackets h.mem).1.1

theorem Open.index_lt (h : L.Open o c i j k) : j < k := h.inside.index_le h.lt_size

/-- Behind an opening bracket the parser is inside of a group. -/
theorem Open.inner (h : L.Open o c i j k) : L.Inner (j + 1) := by
  obtain ⟨m, hm, hclosed, hcloses⟩ := exists_closing h.lt_size h.mem h.opens
  exact ⟨m, o, c, hm, h.mem, hclosed, hcloses⟩

/-- The parenthesis that closes an open one is found by counting. -/
theorem Open.closingParen?_eq (h : L.Open "(" ")" i j k) (hcloses : (L.lexeme k).is ")" = true)
    (w : Bool) : closingParen? 0 ((L.tokens w).drop j) = some (k - j) := by
  have hlt : k < L.size := lt_size_of_is h.inside.le hcloses (by decide)
  obtain ⟨-, ts, hts, hdrop⟩ := h.inside
  have hlength := congrArg List.length hdrop
  rw [List.length_append, List.length_drop, List.length_drop] at hlength
  have hindex : k - j = ts.length + 1 := by
    have := h.index_lt
    rw [size] at hlt
    omega
  have hdropped : L.guard.drop j = L.lexeme j :: (ts ++ L.lexeme k :: L.guard.drop (k + 1)) := by
    rw [drop_eq_cons h.lt_size, hdrop, drop_eq_cons hlt]
  rw [tokens, List.drop_append_of_le_length (Nat.le_of_lt h.lt_size), hdropped, hindex,
    List.cons_append, List.append_assoc, closingParen?, if_pos h.opens, hts.closingParen?_eq 0,
    List.cons_append, closingParen?, Token.is_eq_of_is hcloses, Token.is_eq_of_is hcloses]
  simp

/-- An opening bracket may be consumed. What follows is read inside of its group. -/
theorem Agrees.advanceOpen {f : Token → Parser β} (hb : (o, c) ∈ brackets) (hj : L.Closed i j)
    (hopens : (L.lexeme j).is o = true)
    (h : L.Open o c i j (j + 1) → L.Agrees i (f (L.lexeme j)) (j + 1)) :
    L.Agrees i (advance >>= f) j := by
  have hlt := lt_size_of_is hj.le hopens (ne_of_mem_brackets hb).1.1
  exact (agrees_advance hlt).mpr (h ⟨hb, hj, hopens, .refl hlt⟩)

theorem Agrees.expectOpen {f : Unit → Parser β} (hb : (o, c) ∈ brackets) (hj : L.Closed i j)
    (h : L.Open o c i j (j + 1) → L.Agrees i (f ()) (j + 1)) :
    L.Agrees i (Functor.discard (Grammar.expect o) >>= f) j := by
  rw [agrees_discard, agrees_expect (ne_of_mem_brackets hb).1.1 (ne_of_mem_brackets hb).1.2]
  exact fun hopens => .advanceOpen hb hj hopens h

theorem Agrees.acceptOpen {f : Bool → Parser β} (hb : (o, c) ∈ brackets) (hj : L.Closed i j)
    (htrue : L.Open o c i j (j + 1) → L.Agrees i (f true) (j + 1))
    (hfalse : L.Agrees i (f false) j) :
    L.Agrees i (Grammar.accept o >>= f) j := by
  rw [Grammar.accept, Layouts.acceptIf_bind, agrees_is (ne_of_mem_brackets hb).1.1
    (ne_of_mem_brackets hb).1.2, agrees_ite]
  exact ⟨fun h => .advanceOpen hb hj h htrue, fun _ => hfalse⟩

/-- The closing bracket of a group may be consumed, and the brackets up to there match. -/
theorem Agrees.advanceClose {f : Token → Parser β} (hk : L.Open o c i j k)
    (hcloses : (L.lexeme k).is c = true)
    (h : L.Closed i (k + 1) → L.Agrees i (f (L.lexeme k)) (k + 1)) :
    L.Agrees i (advance >>= f) k := by
  have hlt := lt_size_of_is hk.inside.le hcloses (ne_of_mem_brackets hk.mem).2.1
  exact (agrees_advance hlt).mpr
    (h (hk.outside.group hk.lt_size hk.mem hk.opens hk.inside hlt hcloses))

theorem Agrees.expectClose {f : Unit → Parser β} (hk : L.Open o c i j k)
    (h : L.Closed i (k + 1) → L.Agrees i (f ()) (k + 1)) :
    L.Agrees i (Functor.discard (Grammar.expect c) >>= f) k := by
  rw [agrees_discard, agrees_expect (ne_of_mem_brackets hk.mem).2.1 (ne_of_mem_brackets hk.mem).2.2]
  exact fun hcloses => .advanceClose hk hcloses h

end Agreement

section Combinators

variable {α β : Type} {p : Parser α} {i j k : Nat} {s o c : String}

/-! ### Optional parts -/

/-- A part that is skipped only where a token announces it. -/
theorem Agrees.skipIf (hj : L.Closed i j) (hs : s ≠ ";" ∧ s ≠ "=>")
    (h : (L.lexeme j).is s = true → L.Agrees i p j) :
    L.Agrees i (Grammar.skipIf (is s) p) j := by
  rw [Grammar.skipIf, agrees_is hs.1 hs.2, agrees_ite]
  exact ⟨fun his => (h his).discard, fun _ => .pure hj⟩

theorem Agrees.optionalList {p : Parser (List α)} (hj : L.Closed i j) (hs : s ≠ ";" ∧ s ≠ "=>")
    (h : (L.lexeme j).is s = true → L.Agrees i p j) :
    L.Agrees i (Grammar.optionalList (is s) p) j := by
  rw [Grammar.optionalList, agrees_is hs.1 hs.2, agrees_ite]
  exact ⟨h, fun _ => .pure hj⟩

theorem Agrees.optionalPart_is (hj : L.Closed i j) (hs : s ≠ ";" ∧ s ≠ "=>")
    (h : (L.lexeme j).is s = true → L.Agrees i p j) :
    L.Agrees i (Grammar.optionalPart (is s) p) j := by
  rw [Grammar.optionalPart, agrees_is hs.1 hs.2, agrees_ite]
  exact ⟨fun his => (h his).bind fun _ _ => .pure, fun _ => .pure hj⟩

theorem Agrees.optionalPart_isNot (hj : L.Closed i j) (hs : s ≠ ";" ∧ s ≠ "=>")
    (h : L.Agrees i p j) : L.Agrees i (Grammar.optionalPart (isNot s) p) j := by
  rw [Grammar.optionalPart, agrees_isNot hs.1 hs.2, agrees_ite]
  exact ⟨fun _ => h.bind fun _ _ => .pure, fun _ => .pure hj⟩

/-- An optional part behind a plain token. -/
theorem Agrees.optionalPart_accept (hj : L.Closed i j) (hs : Plain s)
    (h : L.Closed i (j + 1) → (L.lexeme j).is s = true → L.Agrees i p (j + 1)) :
    L.Agrees i (Grammar.optionalPart (Grammar.accept s) p) j :=
  .accept hj hs (fun hk his => (h hk his).bind fun _ _ => .pure) (.pure hj)

theorem Agrees.optionalPart_acceptWord (hj : L.Closed i j)
    (h : L.Closed i (j + 1) → L.Agrees i p (j + 1)) :
    L.Agrees i (Grammar.optionalPart (Grammar.acceptWord s) p) j :=
  .acceptWord hj (fun hk => (h hk).bind fun _ _ => .pure) (.pure hj)

theorem Agrees.optionalPart_pure {b : Bool} (hj : L.Closed i j) (h : L.Agrees i p j) :
    L.Agrees i (Grammar.optionalPart (Pure.pure b) p) j := by
  rw [Grammar.optionalPart, pure_bind, agrees_ite]
  exact ⟨fun _ => h.bind fun _ _ => .pure, fun _ => .pure hj⟩

theorem Agrees.unlessEnd {cause : SyntaxError.Cause} (h : L.Agrees i p j) :
    L.Agrees i (Grammar.unlessEnd cause p) j := by
  rw [Grammar.unlessEnd, agrees_atEnd, agrees_ite]
  exact ⟨fun _ => agrees_fail, fun _ => h⟩

/-! ### Speculation -/

/-- A speculative reading goes on where it began if it fails. -/
theorem Agrees.bindAttempt {l : Nat} {f : Option α → Parser β} (h : L.Agrees l p j)
    (hnone : L.Agrees i (f none) j)
    (hsome : ∀ a k, L.Closed l k → L.Agrees i (f (some a)) k) :
    L.Agrees i (attempt p >>= f) j := by
  rcases h with ⟨a, k, hk, hrun⟩ | ⟨⟨⟩ | ⟨⟩, hrun⟩
  · exact (agrees_bind_of_run fun w => run_attempt_of_ok (hrun w)).mpr (hsome a k hk)
  · refine (agrees_bind_of_run (a := none) fun w => ?_).mpr hnone
    obtain ⟨e, he, hb⟩ := hrun w
    exact run_attempt_of_error he hb
  · refine .inr ⟨true, fun w => ?_⟩
    obtain ⟨e, he, hb⟩ := hrun w
    exact ⟨e, run_bind_of_error (by simp [attempt, he, hb]), hb⟩

theorem Agrees.attempt (hj : L.Closed i j) (h : L.Agrees i p j) :
    L.Agrees i (Grammar.attempt p) j :=
  agrees_iff_bind_pure.mpr (.bindAttempt h (.pure hj) fun _ _ => .pure)

/-- A look ahead ends where it began, and knows what the reading yields there. -/
theorem Agrees.bindLookahead {i' : Nat} {f : Option α → Parser β} (h : L.Agrees i' p j)
    (hf : ∀ o, (∀ w a c, p L.input (L.cursor w j) = .ok (a, c) → o = some a) →
      L.Agrees i (f o) j) : L.Agrees i (lookahead p >>= f) j := by
  rcases h with ⟨a, k, -, hrun⟩ | ⟨⟨⟩ | ⟨⟩, hrun⟩
  · refine (agrees_bind_of_run fun w => run_lookahead_of_ok (hrun w)).mpr
      (hf (some a) fun w b c h => ?_)
    rw [hrun w] at h
    cases h
    rfl
  · refine (agrees_bind_of_run (a := none) fun w => ?_).mpr (hf none fun w b c h => ?_)
    · obtain ⟨e, he, hb⟩ := hrun w
      exact run_lookahead_of_error he hb
    · obtain ⟨e, he, -⟩ := hrun w
      rw [he] at h
      cases h
  · refine .inr ⟨true, fun w => ?_⟩
    obtain ⟨e, he, hb⟩ := hrun w
    exact ⟨e, run_bind_of_error (by simp [lookahead, he, hb]), hb⟩

/-! ### Loops -/

variable {cond : Parser Bool} {item : Parser α} {left : Nat}

theorem Agrees.nextRound (h : L.Agrees i p j) : L.Agrees i (Grammar.nextRound left p) j := by
  rw [Grammar.nextRound, agrees_tokensLeft, agrees_ite]
  exact ⟨fun _ => h, fun _ => agrees_fail⟩

theorem Agrees.repeatFuel {fuel : Nat} (hj : L.Closed i j)
    (h : ∀ k, L.Closed i k → L.Agrees i (Grammar.optionalPart cond item) k) :
    L.Agrees i (Grammar.repeatFuel cond item fuel) j := by
  induction fuel generalizing j with
  | zero => exact agrees_fail
  | succ fuel ih =>
    rw [Layouts.repeatFuel_succ, agrees_tokensLeft]
    refine (h j hj).bind fun o k hk => ?_
    cases o with
    | none => exact .pure hk
    | some a => exact (ih hk).nextRound.bind fun _ _ => .pure

/-- A loop has as many rounds in both texts if each round reads them alike. -/
theorem Agrees.repeatWhile (hj : L.Closed i j)
    (h : ∀ k, L.Closed i k → L.Agrees i (Grammar.optionalPart cond item) k) :
    L.Agrees i (Grammar.repeatWhile cond item) j := by
  rw [Grammar.repeatWhile, agrees_bound]
  exact .repeatFuel hj h

theorem Agrees.extendFuel {step : α → Parser (Option α)} {fuel : Nat} {a : α} (hj : L.Closed i j)
    (h : ∀ a k, L.Closed i k → L.Agrees i (step a) k) :
    L.Agrees i (Grammar.extendFuel step fuel a) j := by
  induction fuel generalizing a j with
  | zero => exact agrees_fail
  | succ fuel ih =>
    rw [Grammar.extendFuel, agrees_tokensLeft]
    refine (h a j hj).bind fun o k hk => ?_
    cases o with
    | none => exact .pure hk
    | some a => exact (ih hk).nextRound

/-- A loop that extends a value takes as many steps in both texts. -/
theorem Agrees.extend {step : α → Parser (Option α)} {a : α} (hj : L.Closed i j)
    (h : ∀ a k, L.Closed i k → L.Agrees i (step a) k) :
    L.Agrees i (Grammar.extend step a) j := by
  rw [Grammar.extend, agrees_bound]
  exact .extendFuel hj h

/-! ### Skipped brackets -/

theorem of_drop_eq_cons {t : Token} {ts : List Token} (h : L.guard.drop j = t :: ts) :
    j < L.size ∧ L.lexeme j = t ∧ L.guard.drop (j + 1) = ts := by
  have hlt : j < L.size := by
    refine Nat.lt_of_not_le fun hle => ?_
    rw [List.drop_eq_nil_of_le hle] at h
    cases h
  rw [drop_eq_cons hlt, List.cons.injEq] at h
  exact ⟨hlt, h⟩

theorem Agrees.skipOpen_succ {opening closing : String} {depth fuel : Nat} (hj : j < L.size)
    (h : ∀ fuel, L.Agrees i
      (Grammar.skipOpen opening closing fuel (openBehind opening closing depth (L.lexeme j)))
      (j + 1)) : L.Agrees i (Grammar.skipOpen opening closing fuel (depth + 1)) j := by
  cases fuel with
  | zero => exact agrees_fail
  | succ fuel =>
    rw [Grammar.skipOpen, agrees_tokensLeft, Grammar.unlessEnd, bind_assoc, agrees_atEnd,
      Layouts.ite_bind, agrees_ite]
    exact ⟨fun _ => agrees_fail_bind, fun _ => (agrees_advance hj).mpr (h fuel).nextRound⟩

/-- Tokens whose brackets match are skipped as a whole. -/
theorem Agrees.skipOpen {ts : List Token} (hb : (o, c) ∈ brackets) (hts : Balanced ts)
    {depth fuel : Nat} (hdrop : L.guard.drop j = ts ++ L.guard.drop k) (hj : j ≤ L.size)
    (hk : k ≤ L.size)
    (h : ∀ fuel, L.Agrees i (Grammar.skipOpen o c fuel (depth + 1)) k) :
    L.Agrees i (Grammar.skipOpen o c fuel (depth + 1)) j := by
  induction hts generalizing j k depth fuel with
  | nil =>
    have hlength := congrArg List.length hdrop
    rw [List.nil_append, List.length_drop, List.length_drop] at hlength
    obtain rfl : j = k := by
      rw [size] at hj hk
      omega
    exact h fuel
  | token hplain _ ih =>
    obtain ⟨hlt, rfl, hmore⟩ := of_drop_eq_cons hdrop
    have hbehind : openBehind o c depth (L.lexeme j) = depth + 1 := by
      rw [openBehind, Token.is_eq_false_of_isBracket hplain (mem_bracketTexts hb).1,
        Token.is_eq_false_of_isBracket hplain (mem_bracketTexts hb).2]
      rfl
    refine .skipOpen_succ hlt fun fuel => ?_
    rw [hbehind]
    exact ih hmore hlt hk h
  | @group o' c' t u us ts hb' ht _ hu _ ihus ihts =>
    rw [List.cons_append, List.append_assoc] at hdrop
    obtain ⟨hlt, rfl, hmore⟩ := of_drop_eq_cons hdrop
    -- The closing bracket stands behind the tokens of the group.
    have hdrop' : L.guard.drop (j + 1 + us.length) = u :: (ts ++ L.guard.drop k) := by
      rw [← List.drop_drop, hmore, List.drop_left]
      rfl
    obtain ⟨hlt', rfl, hdrop''⟩ := of_drop_eq_cons hdrop'
    have hinside : L.guard.drop (j + 1) = us ++ L.guard.drop (j + 1 + us.length) := by
      rw [hmore, hdrop']
      rfl
    obtain ⟨hopen, hclose, hne⟩ := eq_of_mem_brackets hb' hb
    have hne' : c' ≠ o := (eq_of_mem_brackets hb hb').2.2.symm
    by_cases heq : o' = o
    · obtain rfl := hopen heq
      subst heq
      refine .skipOpen_succ hlt fun fuel => ?_
      rw [openBehind, if_pos ht]
      refine ihus hinside hlt (Nat.le_of_lt hlt') fun fuel => .skipOpen_succ hlt' fun fuel => ?_
      rw [openBehind, Token.is_eq_of_is hu, beq_false_of_ne hne', if_neg Bool.false_ne_true,
        if_pos hu]
      exact ihts hdrop'' hlt' hk h
    · refine .skipOpen_succ hlt fun fuel => ?_
      rw [openBehind, Token.is_eq_of_is ht, Token.is_eq_of_is ht,
        beq_false_of_ne heq, beq_false_of_ne hne]
      refine ihus hinside hlt (Nat.le_of_lt hlt') fun fuel => .skipOpen_succ hlt' fun fuel => ?_
      rw [openBehind, Token.is_eq_of_is hu, Token.is_eq_of_is hu, beq_false_of_ne hne',
        beq_false_of_ne fun h => heq (hclose h)]
      exact ihts hdrop'' hlt' hk h

/-- A group that is skipped ends at the same bracket in both texts. -/
theorem Agrees.skipBalanced (hb : (o, c) ∈ brackets) (hj : L.Closed i j) :
    L.Agrees i (Grammar.skipBalanced o c) j := by
  refine .expectOpen hb hj fun hopen => ?_
  obtain ⟨k, hlt, ⟨-, ts, hts, hdrop⟩, hclose⟩ := exists_closing hopen.lt_size hb hopen.opens
  rw [agrees_bound]
  refine .skipOpen hb hts hdrop hopen.inside.le (Nat.le_of_lt hlt) fun fuel => ?_
  have hclosed : L.Closed i (k + 1) :=
    hj.group hopen.lt_size hb hopen.opens ⟨Nat.le_of_lt hlt, ts, hts, hdrop⟩ hlt hclose
  refine .skipOpen_succ hlt fun fuel => ?_
  rw [openBehind, Token.is_eq_of_is hclose, beq_false_of_ne (eq_of_mem_brackets hb hb).2.2.symm,
    if_neg Bool.false_ne_true, if_pos hclose]
  cases fuel with
  | zero => exact agrees_fail
  | succ fuel => exact .pure hclosed

/-! ### Lists -/

theorem Agrees.moreItems (hj : L.Closed i j) (hitem : ∀ k, L.Closed i k → L.Agrees i item k) :
    L.Agrees i (Grammar.moreItems item) j :=
  .repeatWhile hj fun k hk => .accept hk (by decide)
    (fun hk _ => (hitem (k + 1) hk).bind fun _ _ => .pure) (.pure hk)

/-- A list with commas has as many items in both texts. -/
theorem Agrees.separated (hj : L.Closed i j) (hitem : ∀ k, L.Closed i k → L.Agrees i item k) :
    L.Agrees i (Grammar.separated item) j :=
  (hitem j hj).bind fun _ _ hk => (Agrees.moreItems hk hitem).bind fun _ _ => .pure

theorem Agrees.listUntilFuel {closing : String} {fuel : Nat} (hj : L.Closed i j)
    (hclosing : closing ≠ ";" ∧ closing ≠ "=>") (hitem : ∀ k, L.Closed i k → L.Agrees i item k) :
    L.Agrees i (Grammar.listUntilFuel closing item fuel) j := by
  induction fuel generalizing j with
  | zero => exact agrees_fail
  | succ fuel ih =>
    rw [Grammar.listUntilFuel, agrees_tokensLeft, agrees_is hclosing.1 hclosing.2, agrees_ite]
    refine ⟨fun _ => .pure hj, fun _ => (hitem j hj).bind fun a k hk => ?_⟩
    exact .accept hk (by decide) (fun hk _ => (ih hk).nextRound.bind fun _ _ => .pure) (.pure hk)

/-- A list up to a closing token has as many items in both texts. -/
theorem Agrees.listUntil {closing : String} (hj : L.Closed i j)
    (hclosing : closing ≠ ";" ∧ closing ≠ "=>") (hitem : ∀ k, L.Closed i k → L.Agrees i item k) :
    L.Agrees i (Grammar.listUntil closing item) j := by
  rw [Grammar.listUntil, agrees_bound]
  exact .listUntilFuel hj hclosing hitem

/-- A list in brackets with a parser behind it. The items are read inside of the group. -/
theorem Agrees.bindEnclosed {f : List α → Parser β} (hb : (o, c) ∈ brackets) (hj : L.Closed i j)
    (hitem : ∀ i k, L.Inner i → L.Closed i k → L.Agrees i item k)
    (hf : ∀ items k, L.Open o c i j k → (L.lexeme k).is c = true → L.Closed i (k + 1) →
      L.Agrees i (f items) (k + 1)) : L.Agrees i (Grammar.enclosed o c item >>= f) j := by
  rw [Grammar.enclosed, bind_assoc]
  refine .expectOpen hb hj fun hopen => ?_
  rw [bind_assoc]
  refine (Agrees.listUntil hopen.inside (ne_of_mem_brackets hb).2
    fun k => hitem (j + 1) k hopen.inner).bind fun items k hk => ?_
  have hopen : L.Open o c i j k := { hopen with inside := hk }
  rw [bind_assoc, agrees_discard,
    agrees_expect (ne_of_mem_brackets hb).2.1 (ne_of_mem_brackets hb).2.2]
  exact fun hcloses => .advanceClose hopen hcloses (hf items k hopen hcloses)

theorem Agrees.enclosed (hb : (o, c) ∈ brackets) (hj : L.Closed i j)
    (hitem : ∀ i k, L.Inner i → L.Closed i k → L.Agrees i item k) :
    L.Agrees i (Grammar.enclosed o c item) j :=
  agrees_iff_bind_pure.mpr (.bindEnclosed hb hj hitem fun _ _ _ _ => .pure)

end Combinators

end Endings

end CSharpAudit
