import CSharpAudit.Proofs.Erasure
import CSharpAudit.Proofs.Running

/-!
# Operator precedence

An expression over integer literals can be read in one way only. Its operators group it into a
tree; if no operator stands below one that binds tighter without a parenthesis between them, then
the tokens that write the tree are read back as this tree.

The reader climbs: it takes an operand and extends it by one operator after the other, as long as
they bind tightly enough. So the trees on the left spine are what it holds on the way, and for each
of them there is a loop that still has to be run behind it.

## Main definitions

* `OperatorTree` — literals, parentheses, signs and binary operators
* `OperatorTree.WellBracketed` — parentheses stand where the precedences ask for them
* `OperatorTree.Prints` — the tokens that write a tree

## Main results

* `OperatorTree.Prints.closes` — a parenthesis of a tree is closed in the tree
* `OperatorTree.Prints.climbs` — the loop that reads binary expressions comes by every tree
* `OperatorTree.expr_reads_unique` — a well-bracketed tree is read back, and no other one is written
  alike
-/

namespace CSharpAudit

open Grammar

/-- The precedence of a binary operator, those that several tokens write included. -/
def infixPrecedence? : String → Option Nat
  | ">>" | ">>>" => some shiftPrecedence
  | op => precedence? op

/-- The least precedence of a left operand. Only `??` does not group to the left. -/
def leftLevel (op : String) (p : Nat) : Nat := if op = "??" then p + 1 else p

/-- The least precedence of a right operand. -/
def rightLevel (op : String) (p : Nat) : Nat := if op = "??" then p else p + 1

/-- The operator `??` alone has the least precedence. -/
theorem infixPrecedence?_cases {op : String} {p : Nat} (h : infixPrecedence? op = some p) :
    op = "??" ∧ p = coalescePrecedence ∨ op ≠ "??" ∧ coalescePrecedence < p := by
  unfold infixPrecedence? at h
  split at h
  all_goals try (cases h; decide)
  unfold precedence? at h
  split at h
  all_goals first | (cases h; decide) | cases h

/-- An expression over integer literals, as its operators group it. -/
inductive OperatorTree where
  | literal (text : String)
  | paren (t : OperatorTree)
  | signed (op : String) (t : OperatorTree)
  | joined (op : String) (x y : OperatorTree)
  deriving DecidableEq, Repr

namespace OperatorTree

/-- The expression of a tree, without layout. -/
def node : OperatorTree → Node
  | literal text => .literal .none .int text
  | paren t => .paren .none t.node
  | signed op t => .unary .none op t.node false
  | joined op x y => .binary .none op x.node y.node

/-- Different operator trees are different trees. -/
theorem node_injective {t u : OperatorTree} (h : t.node = u.node) : t = u := by
  induction t generalizing u with
  | literal text => cases u <;> simp_all [node]
  | paren t ih =>
    cases u <;> simp [node] at h
    rw [ih h]
  | signed op t ih =>
    cases u <;> simp [node] at h
    rw [h.1, ih h.2]
  | joined op x y ihx ihy =>
    cases u <;> simp [node] at h
    rw [h.1, ihx h.2.1, ihy h.2.2]

/-- Whether the root of a tree is a binary operator. -/
def isJoined : OperatorTree → Bool
  | joined _ _ _ => true
  | _ => false

/-- `t.Binds m` says that the root of `t` is no binary operator of a precedence below `m`. -/
def Binds (m : Nat) : OperatorTree → Prop
  | joined op _ _ => ∀ p ∈ infixPrecedence? op, m ≤ p
  | _ => True

/-- Parentheses stand where the precedences ask for them: around a binary operator below a sign, and
around one below a binary operator unless it binds tighter. Among operators of one precedence those
on the left may do without, and for `??` those on the right. -/
def WellBracketed : OperatorTree → Prop
  | literal _ => True
  | paren t => t.WellBracketed
  | signed _ t => t.isJoined = false ∧ t.WellBracketed
  | joined op x y => ∃ p ∈ infixPrecedence? op, x.Binds (leftLevel op p) ∧
      y.Binds (rightLevel op p) ∧ x.WellBracketed ∧ y.WellBracketed

instance (m : Nat) : ∀ t : OperatorTree, Decidable (t.Binds m)
  | joined op _ _ => inferInstanceAs (Decidable (∀ p ∈ infixPrecedence? op, m ≤ p))
  | literal _ | paren _ | signed _ _ => isTrue trivial

instance WellBracketed.decidable : ∀ t : OperatorTree, Decidable t.WellBracketed
  | literal _ => isTrue trivial
  | paren t => WellBracketed.decidable t
  | signed _ t =>
    have := WellBracketed.decidable t
    inferInstanceAs (Decidable (t.isJoined = false ∧ t.WellBracketed))
  | joined op x y =>
    have := WellBracketed.decidable x
    have := WellBracketed.decidable y
    inferInstanceAs (Decidable (∃ p ∈ infixPrecedence? op, x.Binds (leftLevel op p) ∧
      y.Binds (rightLevel op p) ∧ x.WellBracketed ∧ y.WellBracketed))

/-- The signs before an operand. -/
def signs : List String := ["+", "-", "!", "~"]

/-- The tokens that write a binary operator. -/
inductive WritesOperator : String → List Token → Prop
  | single {t : Token} (hkind : t.kind = .punct) (hop : (precedence? t.text).isSome = true) :
    WritesOperator t.text [t]
  | shift {t u : Token} (ht : t.IsPunct ">") (hu : u.IsPunct ">") (htu : t.touches u = true) :
    WritesOperator ">>" [t, u]
  | unsignedShift {t u v : Token} (ht : t.IsPunct ">") (hu : u.IsPunct ">") (hv : v.IsPunct ">")
    (htu : t.touches u = true) (huv : u.touches v = true) : WritesOperator ">>>" [t, u, v]

/-- The tokens that write a tree, without parentheses other than its own. -/
inductive Prints : OperatorTree → List Token → Prop
  | literal {t : Token} (hkind : t.kind = .int) : Prints (.literal t.text) [t]
  | paren {t : OperatorTree} {ts : List Token} {opening closing : Token}
    (hopening : opening.IsPunct "(") (ht : Prints t ts) (hclosing : closing.IsPunct ")") :
    Prints (.paren t) (opening :: (ts ++ [closing]))
  | signed {t : OperatorTree} {ts : List Token} {sign : Token} (hkind : sign.kind = .punct)
    (hsign : sign.text ∈ signs) (ht : Prints t ts) : Prints (.signed sign.text t) (sign :: ts)
  | joined {op : String} {x y : OperatorTree} {xs os ys : List Token} (hx : Prints x xs)
    (hop : WritesOperator op os) (hy : Prints y ys) : Prints (.joined op x y) (xs ++ os ++ ys)

/-! ### First tokens and followers -/

/-- A token that a tree may begin with. -/
def Begins (t : Token) : Prop :=
  t.kind = .int ∨ t.kind = .punct ∧ t.text ∈ "(" :: signs

/-- A printed tree begins with an operand. -/
theorem Prints.exists_cons {t : OperatorTree} {ts : List Token} (h : t.Prints ts) :
    ∃ u us, ts = u :: us ∧ Begins u := by
  induction h with
  | literal hkind => exact ⟨_, _, rfl, .inl hkind⟩
  | paren hopening => exact ⟨_, _, rfl, .inr ⟨hopening.kind, by simp [hopening.text]⟩⟩
  | signed hkind hsign => exact ⟨_, _, rfl, .inr ⟨hkind, List.mem_cons_of_mem _ hsign⟩⟩
  | @joined _ _ _ _ os ys hx hop hy ihx =>
    obtain ⟨u, us, rfl, hu⟩ := ihx
    exact ⟨u, us ++ os ++ ys, rfl, hu⟩

theorem is_eq_false_of_mem_signs {t : Token} (h : t.text ∈ signs) {s : String} (hs : s ∉ signs) :
    t.is s = false := by
  rw [Token.is, Bool.and_eq_false_iff]
  exact .inr (beq_false_of_ne fun heq => hs (heq ▸ h))

/-- What begins an operand is a parenthesis, a sign or no punctuator at all. -/
theorem Begins.is_eq {t : Token} (h : Begins t) {s : String} (hs : s ∉ "(" :: signs) :
    t.is s = false := by
  rcases h with h | ⟨-, h⟩
  · simp [Token.is, h]
  · rw [Token.is, Bool.and_eq_false_iff]
    exact .inr (beq_false_of_ne fun heq => hs (heq ▸ h))

theorem Begins.isWord_eq {t : Token} (h : Begins t) (s : String) : t.isWord s = false := by
  rcases h with h | ⟨h, -⟩ <;> simp [Token.isWord, h]

theorem Begins.isIdent_eq {t : Token} (h : Begins t) : t.isIdent = false := by
  rcases h with h | ⟨h, -⟩ <;> simp [Token.isIdent, h]

theorem is_eq_false_of_precedence? {t : Token} (h : (precedence? t.text).isSome = true)
    {s : String} (hs : precedence? s = none) : t.is s = false := by
  rw [Token.is, Bool.and_eq_false_iff]
  refine .inr (beq_false_of_ne fun heq => ?_)
  rw [heq, hs] at h
  cases h

/-- A token that may stand behind a tree. -/
def Follows (t : Token) : Prop :=
  t.kind = .punct ∧ (t.text = ";" ∨ t.text = ")" ∨ (precedence? t.text).isSome = true)

/-- What follows an operand is an operator or ends the expression. -/
theorem Follows.is_eq {t : Token} (h : Follows t) {s : String} (hs : s ≠ ";" ∧ s ≠ ")")
    (hop : precedence? s = none) : t.is s = false := by
  rcases h.2 with h | h | h
  · simp [Token.is, h, hs.1.symm]
  · simp [Token.is, h, hs.2.symm]
  · exact is_eq_false_of_precedence? h hop

theorem follows_of_closing {t : Token} (h : t.IsPunct ";" ∨ t.IsPunct ")") : Follows t := by
  rcases h with h | h
  · exact ⟨h.kind, .inl h.text⟩
  · exact ⟨h.kind, .inr (.inl h.text)⟩

namespace WritesOperator

variable {op : String} {os : List Token}

/-- An operator is made of tokens that each write one. -/
theorem forall_mem (h : WritesOperator op os) :
    ∀ t ∈ os, t.kind = .punct ∧ (precedence? t.text).isSome = true := by
  have hgreater {t : Token} (ht : t.IsPunct ">") :
      t.kind = .punct ∧ (precedence? t.text).isSome = true :=
    ⟨ht.kind, by rw [ht.text]; rfl⟩
  cases h with
  | single hkind hop => simp [hkind, hop]
  | shift ht hu => simp [hgreater ht, hgreater hu]
  | unsignedShift ht hu hv => simp [hgreater ht, hgreater hu, hgreater hv]

theorem exists_cons (h : WritesOperator op os) : ∃ u us, os = u :: us ∧ Follows u := by
  have hmem := h.forall_mem
  cases h <;> exact ⟨_, _, rfl, (hmem _ (by simp)).1, .inr (.inr (hmem _ (by simp)).2)⟩

end WritesOperator

/-! ### Parentheses -/

theorem closingParen?_cons {t : Token} (h : t.is "(" = false) (h' : t.is ")" = false) (k : Nat)
    (rest : List Token) : closingParen? k (t :: rest) = (closingParen? k rest).map (· + 1) := by
  simp [closingParen?, h, h']

/-- Tokens without parentheses do not close one. -/
theorem closingParen?_append {ts : List Token}
    (h : ∀ t ∈ ts, t.is "(" = false ∧ t.is ")" = false) (k : Nat) (rest : List Token) :
    closingParen? k (ts ++ rest) = (closingParen? k rest).map (· + ts.length) := by
  induction ts with
  | nil => simp
  | cons t ts ih =>
    obtain ⟨ht, ht'⟩ := h t (by simp)
    rw [List.cons_append, closingParen?_cons ht ht', ih fun u hu => h u (by simp [hu]),
      Option.map_map]
    rfl

/-- Operators have no parentheses. -/
theorem WritesOperator.closes {op : String} {os : List Token} (h : WritesOperator op os) (k : Nat)
    (rest : List Token) :
    closingParen? k (os ++ rest) = (closingParen? k rest).map (· + os.length) :=
  closingParen?_append (fun t ht =>
    ⟨is_eq_false_of_precedence? (h.forall_mem t ht).2 rfl,
      is_eq_false_of_precedence? (h.forall_mem t ht).2 rfl⟩) k rest

/-- The parentheses of a tree are closed in the tree. -/
theorem Prints.closes {t : OperatorTree} {ts : List Token} (h : t.Prints ts) (k : Nat)
    (rest : List Token) :
    closingParen? (k + 1) (ts ++ rest) = (closingParen? (k + 1) rest).map (· + ts.length) := by
  induction h generalizing k rest with
  | literal hkind =>
    exact closingParen?_append (by simp [Token.is, hkind]) _ _
  | @paren t ts opening closing hopening _ hclosing ih =>
    have hinner : closingParen? (k + 2) (ts ++ closing :: rest) =
        ((closingParen? (k + 1) rest).map (· + 1)).map (· + ts.length) := by
      rw [ih]
      simp [closingParen?, hclosing.is_eq]
    simp [closingParen?, hopening.is_eq, hinner, Function.comp_def, Nat.add_assoc,
      Nat.add_comm 1]
  | @signed t ts sign hkind hsign _ ih =>
    rw [List.cons_append, closingParen?_cons (is_eq_false_of_mem_signs hsign (by decide))
      (is_eq_false_of_mem_signs hsign (by decide)), ih, Option.map_map]
    rfl
  | joined _ hop _ ihx ihy =>
    rw [List.append_assoc, List.append_assoc, ihx, hop.closes, ihy]
    simp [Function.comp_def, Nat.add_comm, Nat.add_left_comm]

/-- Behind the parenthesis that closes the one at the front of a tree no arrow stands. -/
theorem Prints.group_closes {t : OperatorTree} {ts : List Token} (h : t.Prints ts) {f : Token}
    (hf : Follows f) {r : List Token} {u : Token} {us : List Token} (hcons : ts ++ f :: r = u :: us)
    (hu : u.is "(" = true) :
    ∃ n v, closingParen? 0 (u :: us) = some n ∧ (u :: us)[n + 1]? = some v ∧ Follows v := by
  -- along the left edge of the tree, where its first token stands
  induction h generalizing f r u us with
  | literal hkind =>
    obtain ⟨rfl, rfl⟩ := hcons
    simp [Token.is, hkind] at hu
  | @paren t ts opening closing hopening ht hclosing _ =>
    obtain ⟨rfl, rfl⟩ := hcons
    have hinner : closingParen? 1 (ts ++ closing :: f :: r) = some ts.length := by
      rw [ht.closes 0]
      simp [closingParen?, hclosing.is_eq]
    refine ⟨ts.length + 1, f, ?_, by simp, hf⟩
    simp [closingParen?, hopening.is_eq, hinner]
  | @signed t ts sign hkind hsign _ _ =>
    obtain ⟨rfl, rfl⟩ := hcons
    rw [is_eq_false_of_mem_signs hsign (by decide)] at hu
    cases hu
  | @joined op y z ys os zs hy hop _ ihy _ =>
    obtain ⟨v, vs, rfl, hv⟩ := hop.exists_cons
    exact ihy hv (r := vs ++ zs ++ f :: r) (by simpa using hcons) hu

section Reading

variable {t : OperatorTree} {ts : List Token} {f : Token} {r : List Token} {x : Input}
  {d k : Nat}

/-- No lambda begins with a tree. -/
theorem Prints.lambda?_eq (h : t.Prints ts) (hf : Follows f) (self : Rules) :
    lambda? self x ⟨ts ++ f :: r, k⟩ = .ok (none, ⟨ts ++ f :: r, k⟩) := by
  obtain ⟨u, us, hts, hu⟩ := h.exists_cons
  have hcons : ts ++ f :: r = u :: (us ++ f :: r) := by rw [hts]; rfl
  rw [hcons]
  have hlead : lambda? self x ⟨u :: (us ++ f :: r), k⟩ =
      lambdaFrom? self false 0 x ⟨u :: (us ++ f :: r), k⟩ := by
    simp [lambda?, hu.isWord_eq, hu.is_eq (s := "static") (by decide)]
  rw [hlead]
  by_cases hparen : u.is "(" = true
  · obtain ⟨n, v, hn, hv, hfollows⟩ := h.group_closes hf hcons hparen
    have hahead : ahead x (u :: (us ++ f :: r)) (n + 1) = v := by
      rw [ahead, hv]
      rfl
    have harrow : v.is "=>" = false := hfollows.is_eq (by decide) rfl
    simp [lambdaFrom?, hu.isIdent_eq, hparen, hn, hahead, harrow, -ahead_succ]
  · simp [lambdaFrom?, hu.isIdent_eq, hparen]

/-- No type begins with a tree, so no parenthesis before a tree opens a cast. -/
theorem Prints.type_eq_error (h : t.Prints ts) (hd : ts.length ≤ d) :
    ∃ e, type (rules d) x ⟨ts ++ r, k⟩ = .error e ∧ e.cause.isEndless = false := by
  -- along the left edge again, since a type is read from the first token on
  induction h generalizing d r k with
  | @literal u hkind =>
    refine ⟨⟨u.span.start, .expectedType u⟩, ?_, rfl⟩
    simp [type, unmarkedType, Token.is, Token.isPredefinedType, Token.isIdent, hkind]
  | @paren t ts opening closing hopening ht hclosing ih =>
    obtain ⟨d, rfl⟩ : ∃ n, d = n + 1 := Nat.exists_eq_succ_of_ne_zero (by simp at hd; omega)
    obtain ⟨e, he, hendless⟩ := ih (d := d) (r := closing :: r) (k := opening.span.stop)
      (by simp at hd; omega)
    refine ⟨e, ?_, hendless⟩
    have helement : tupleElement (rules (d + 1)) x ⟨ts ++ closing :: r, opening.span.stop⟩ =
        .error e := run_bind_of_error he
    have helements : separated (tupleElement (rules (d + 1))) x
        ⟨ts ++ closing :: r, opening.span.stop⟩ = .error e := run_bind_of_error helement
    have htuple : unmarkedType (rules (d + 1)) x ⟨opening :: (ts ++ closing :: r), k⟩ =
        .error e := by
      simp [unmarkedType, tupleType, run_expect_bind, hopening.is_eq, run_bind_of_error helements]
    simp [type, run_bind_of_error htuple]
  | @signed t ts sign hkind hsign _ _ =>
    refine ⟨⟨sign.span.start, .expectedType sign⟩, ?_, rfl⟩
    simp [type, unmarkedType, Token.isPredefinedType, Token.isIdent, hkind,
      is_eq_false_of_mem_signs hsign (s := "(") (by decide)]
  | @joined op y z ys os zs hy hop _ ihy _ =>
    simpa using ihy (r := os ++ zs ++ r) (d := d) (by simp at hd; omega)

/-! ### Operands -/

/-- No postfix form begins with a token that may follow a tree. -/
theorem Follows.suffix_eq (hf : Follows f) (self : Rules) (start : Nat) (n : Node) :
    suffix self start n x ⟨f :: r, k⟩ = .ok (none, ⟨f :: r, k⟩) := by
  have his {s : String} (hs : s ∈ [".", "?.", "->", "?", "(", "[", "++", "--", "!"]) :
      f.is s = false := by
    refine hf.is_eq ?_ ?_ <;> revert s <;> decide
  simp [suffix, his]

/-- A primary expression with no cast before it is an operand. -/
theorem unary_of_primary {self : Rules} {u : Token} {us : List Token} {n : Node} {stop' : Nat}
    (hu : u.kind = .int ∨ u.IsPunct "(")
    (hcast : castType? self x ⟨u :: us, k⟩ = .ok (none, ⟨u :: us, k⟩))
    (hprimary : primary self x ⟨u :: us, k⟩ = .ok (n, ⟨f :: r, stop'⟩)) (hf : Follows f) :
    unary self x ⟨u :: us, k⟩ = .ok (n, ⟨f :: r, stop'⟩) := by
  have hleading : ((u.kind == .punct && unaryOps.contains u.text) ||
      (u.kind == .keyword && ["ref", "out", "in"].contains u.text)) = false := by
    rcases hu with hu | hu
    · simp [hu]
    · simp [hu.kind, hu.text, unaryOps]
  have hawait : u.isWord "await" = false := by
    rcases hu with hu | hu
    · simp [Token.isWord, hu]
    · simp [Token.isWord, hu.kind]
  have hnone : cast? self x ⟨u :: us, k⟩ = .ok (none, ⟨u :: us, k⟩) := run_cast?_none hcast
  have hloop : extend (suffix self u.span.start) n x ⟨f :: r, stop'⟩ = .ok (n, ⟨f :: r, stop'⟩) :=
    run_extend_none (hf.suffix_eq self _ n)
  have hswitch : f.is "switch" = false := hf.is_eq (by decide) rfl
  rw [unary, run_current_bind, ahead_zero]
  simp only [hleading]
  simp [run_bind_of_ok hnone, hawait, run_bind_of_ok hprimary, run_bind_of_ok hloop, hswitch]

/-- A literal is an operand by itself. -/
theorem unary_literal {u : Token} (hkind : u.kind = .int) (hf : Follows f) (self : Rules) :
    unary self x ⟨u :: f :: r, k⟩ =
      .ok (.literal ⟨u.span.start, u.span.stop⟩ .int u.text, ⟨f :: r, u.span.stop⟩) := by
  have hprimary : primary self x ⟨u :: f :: r, k⟩ =
      .ok (.literal ⟨u.span.start, u.span.stop⟩ .int u.text, ⟨f :: r, u.span.stop⟩) := by
    simp [primary, literalKind?, hkind, -bind_pure_comp]
  have hcast : castType? self x ⟨u :: f :: r, k⟩ = .ok (none, ⟨u :: f :: r, k⟩) :=
    run_castType?_none (by simp [Token.is, hkind])
  exact unary_of_primary (.inl hkind) hcast hprimary hf

/-- An operand behind a sign is an operand. -/
theorem unary_signed {self : Rules} {sign : Token} {us : List Token} {n : Node} {stop' : Nat}
    (hkind : sign.kind = .punct) (hsign : sign.text ∈ signs)
    (h : self.unary x ⟨us, sign.span.stop⟩ = .ok (n, ⟨r, stop'⟩)) :
    unary self x ⟨sign :: us, k⟩ =
      .ok (.unary ⟨sign.span.start, stop'⟩ sign.text n false, ⟨r, stop'⟩) := by
  have hsign : sign.text ∈ unaryOps := List.mem_append_left ["++", "--", "^", "&", "*"] hsign
  simp [unary, hkind, hsign, run_bind_of_ok h, -bind_pure_comp]

/-- A tree between parentheses is an operand: the parentheses neither make a cast nor a tuple. -/
theorem Prints.unary_paren (ht : t.Prints ts) (hd : ts.length ≤ d) {opening closing : Token}
    {n : Node} {stop' : Nat} (hopening : opening.IsPunct "(") (hclosing : closing.IsPunct ")")
    (hexpr : expr (rules d) x ⟨ts ++ closing :: f :: r, opening.span.stop⟩ =
      .ok (n, ⟨closing :: f :: r, stop'⟩)) (hf : Follows f) :
    unary (rules (d + 1)) x ⟨opening :: (ts ++ closing :: f :: r), k⟩ =
      .ok (.paren ⟨opening.span.start, closing.span.stop⟩ n, ⟨f :: r, closing.span.stop⟩) := by
  have hcast : castType? (rules (d + 1)) x ⟨opening :: (ts ++ closing :: f :: r), k⟩ =
      .ok (none, ⟨opening :: (ts ++ closing :: f :: r), k⟩) := by
    obtain ⟨e, htype, he⟩ := ht.type_eq_error (x := x) (r := closing :: f :: r)
      (k := opening.span.stop) hd
    have htype : (rules (d + 1)).type x ⟨ts ++ closing :: f :: r, opening.span.stop⟩ =
      .error e := htype
    refine run_attempt_of_error ?_ he
    simp [run_expect_bind, hopening.is_eq, run_bind_of_error htype]
  -- No argument of a tuple either: what stands in the parentheses is a plain expression.
  have hvalue : argumentValue (rules (d + 1)) "" x ⟨ts ++ closing :: f :: r, opening.span.stop⟩ =
      .ok (n, ⟨closing :: f :: r, stop'⟩) := by
    obtain ⟨e, htype, he⟩ := ht.type_eq_error (x := x) (r := closing :: f :: r)
      (k := opening.span.stop) (Nat.le_succ_of_le hd)
    have hahead : lookahead (do discard <| type (rules (d + 1)); isIdent) x
        ⟨ts ++ closing :: f :: r, opening.span.stop⟩ =
          .ok (none, ⟨ts ++ closing :: f :: r, opening.span.stop⟩) := by
      refine run_lookahead_of_error ?_ he
      simp [run_bind_of_error htype]
    simp [argumentValue, atTypeThenIdent, run_bind_of_ok hahead]
    exact hexpr
  obtain ⟨u, us, rfl, hu⟩ := ht.exists_cons
  rw [List.cons_append] at hvalue
  have href : ["ref", "out", "in"].any u.is = false := by
    simp [hu.is_eq (s := "ref") (by decide), hu.is_eq (s := "out") (by decide),
      hu.is_eq (s := "in") (by decide)]
  have hargument : argument (rules (d + 1)) x
      ⟨u :: (us ++ closing :: f :: r), opening.span.stop⟩ =
        .ok ({ span := ⟨u.span.start, stop'⟩, value := n }, ⟨closing :: f :: r, stop'⟩) := by
    simp [argument, argumentName, textOf, hu.isIdent_eq, href, run_bind_of_ok hvalue,
      -bind_pure_comp]
  have hprimary : primary (rules (d + 1)) x
      ⟨opening :: u :: (us ++ closing :: f :: r), k⟩ =
        .ok (.paren ⟨opening.span.start, closing.span.stop⟩ n, ⟨f :: r, closing.span.stop⟩) := by
    simp [primary, parenOrTuple, literalKind?, hopening.kind, hopening.is_eq, Token.isIdent,
      run_expect_bind, run_accept_bind, run_bind_of_ok hargument, hclosing.is_eq, -bind_pure_comp]
  exact unary_of_primary (.inr hopening) hcast hprimary hf

/-! ### Operators -/

/-- The binary operator that stands in a text is found. -/
theorem WritesOperator.binaryOp?_eq {op : String} {os : List Token} {p : Nat}
    (hop : WritesOperator op os) (hp : infixPrecedence? op = some p) {u : Token} {us : List Token}
    (hu : Begins u) :
    binaryOp? x ⟨os ++ u :: us, k⟩ = .ok (some ⟨op, p, os.length⟩, ⟨os ++ u :: us, k⟩) := by
  have hgreater : u.is ">" = false := hu.is_eq (by decide)
  have hassign : u.is ">=" = false := hu.is_eq (by decide)
  -- A shift is found by the signs that touch, and what follows it cannot make it longer.
  cases hop with
  | @single t hkind hop =>
    have hprec : precedence? t.text = some p := by
      revert hp
      unfold infixPrecedence?
      split
      · rename_i h; rw [h] at hop; cases hop
      · rename_i h; rw [h] at hop; cases hop
      · exact id
    simp [binaryOp?, hkind, hgreater, hassign, hprec]
  | shift ht hsecond htouches =>
    cases hp
    rw [Token.touches] at htouches
    simp [binaryOp?, ht.kind, ht.text, hsecond.is_eq, hgreater, htouches]
  | unsignedShift ht hsecond hthird htouches htouches' =>
    cases hp
    rw [Token.touches] at htouches htouches'
    simp [binaryOp?, ht.kind, ht.text, hsecond.is_eq, hthird.is_eq, htouches, htouches']

/-- What stands in a text does not continue an expression whose operators have the precedence `m` at
least. -/
def EndsAbove (x : Input) (m : Nat) (rest : List Token) : Prop :=
  ∀ k, ∃ o, binaryOp? x ⟨rest, k⟩ = .ok (o, ⟨rest, k⟩) ∧ ∀ op ∈ o, op.precedence < m

/-- Where no operator of a level goes on, none of a higher level does. -/
theorem EndsAbove.mono {m m' : Nat} {rest : List Token} (h : EndsAbove x m rest) (hm : m ≤ m') :
    EndsAbove x m' rest := by
  intro k
  obtain ⟨o, ho, hlt⟩ := h k
  exact ⟨o, ho, fun op hop => Nat.lt_of_lt_of_le (hlt op hop) hm⟩

/-- Where an expression ends, no operator is read. -/
theorem EndsAbove.binaryStep_eq {m : Nat} {rest : List Token} (h : EndsAbove x m rest)
    (self : Rules) (start : Nat) (n : Node) :
    binaryStep self start m n x ⟨rest, k⟩ = .ok (none, ⟨rest, k⟩) := by
  obtain ⟨o, ho, hlt⟩ := h k
  rw [binaryStep, run_bind_of_ok ho]
  cases o with
  | none => rfl
  | some op => simp [hlt op rfl]

/-- The right operand of an operator is read from the level of the operator on. -/
theorem rightOperand_eq (op : String) (p w : Nat) (self : Rules) {u : Token} {us : List Token}
    (hu : Begins u) :
    rightOperand self ⟨op, p, w⟩ x ⟨u :: us, k⟩ =
      self.binary (rightLevel op p) x ⟨u :: us, k⟩ := by
  by_cases hop : op = "??"
  · simp [rightOperand, rightLevel, hop, hu.is_eq (s := "throw") (by decide)]
  · simp [rightOperand, rightLevel, hop]

/-- One round of the loop: an operator that binds tightly enough takes its right operand. -/
theorem WritesOperator.binaryStep_eq {op : String} {os : List Token} {p m : Nat} {self : Rules}
    {u : Token} {us : List Token} {y : OperatorTree} (hop : WritesOperator op os)
    (hp : infixPrecedence? op = some p) (hm : m ≤ p) (hu : Begins u)
    (hy : ∀ k, ∃ n stop', n.erase = y.node ∧
      self.binary (rightLevel op p) x ⟨u :: us, k⟩ = .ok (n, ⟨r, stop'⟩))
    (start : Nat) (n : Node) :
    ∃ n' stop', n'.erase = y.node ∧ binaryStep self start m n x ⟨os ++ u :: us, k⟩ =
      .ok (some (.binary ⟨start, stop'⟩ op n n'), ⟨r, stop'⟩) := by
  obtain ⟨behind, hadvance⟩ := run_advanceBy (x := x) os (u :: us) k
  obtain ⟨n', stop', hn', hbinary⟩ := hy behind
  rw [← rightOperand_eq op p os.length self hu] at hbinary
  refine ⟨n', stop', hn', ?_⟩
  have his : op ≠ "is" ∧ op ≠ "as" := by
    constructor <;> (rintro rfl; cases hp)
  rw [binaryStep, run_bind_of_ok (hop.binaryOp?_eq hp hu)]
  simp [Nat.not_lt.mpr hm, run_bind_of_ok hadvance, his, run_bind_of_ok hbinary, -bind_pure_comp]

/-! ### Climbing -/

/-- `t.EndsBefore x rest` says that the tokens `rest` do not continue the right operand of the root
of `t`. -/
def EndsBefore (x : Input) (rest : List Token) : OperatorTree → Prop
  | joined op _ _ => ∀ p ∈ infixPrecedence? op, EndsAbove x (rightLevel op p) rest
  | _ => True

/-- The tokens `ts` are read as the operand `t`. -/
def IsOperand (t : OperatorTree) (ts : List Token) : Prop :=
  ∀ ⦃d f r x k⦄, ts.length ≤ d → Follows f →
    ∃ n stop', n.erase = t.node ∧
      unary (rules d) x ⟨ts ++ f :: r, k⟩ = .ok (n, ⟨f :: r, stop'⟩)

/-- The loop that reads a binary expression comes by the tree `t` if it starts at `ts`. -/
def Climbs (t : OperatorTree) (ts : List Token) : Prop :=
  ∀ ⦃d m f r x k⦄, ts.length ≤ d → Follows f → t.Binds m → t.EndsBefore x (f :: r) →
    ∃ start n stop', n.erase = t.node ∧ binary (rules d) m x ⟨ts ++ f :: r, k⟩ =
      extend (binaryStep (rules d) start m) n x ⟨f :: r, stop'⟩

/-- An operand is read whatever level is asked for. -/
theorem IsOperand.climbs (h : t.IsOperand ts) : t.Climbs ts := by
  intro d m f r x k hd hf _ _
  obtain ⟨n, stop', hn, hunary⟩ := h (r := r) (x := x) (k := k) hd hf
  exact ⟨_, n, stop', hn, by rw [binary, run_offset_bind, run_bind_of_ok hunary]⟩

/-- A binary expression ends where no operator of its level stands. -/
theorem Climbs.binary_eq (h : t.Climbs ts) {m : Nat} (hd : ts.length ≤ d) (hf : Follows f)
    (hm : t.Binds m) (hends : t.EndsBefore x (f :: r)) (hstop : EndsAbove x m (f :: r)) :
    ∃ n stop', n.erase = t.node ∧
      binary (rules d) m x ⟨ts ++ f :: r, k⟩ = .ok (n, ⟨f :: r, stop'⟩) := by
  obtain ⟨start, n, stop', hn, hbinary⟩ := h (k := k) hd hf hm hends
  exact ⟨n, stop', hn, hbinary.trans (run_extend_none (hstop.binaryStep_eq (rules d) start n))⟩

/-- A token that ends a tree: it writes no operator. -/
theorem endsAbove_of_closing (hf : f.IsPunct ";" ∨ f.IsPunct ")") (m : Nat) :
    EndsAbove x m (f :: r) := by
  intro k
  refine ⟨none, ?_, by simp⟩
  rcases hf with hf | hf <;> simp [binaryOp?, hf.kind, hf.text, precedence?, -bind_pure_comp]

theorem endsBefore_of_closing (hf : f.IsPunct ";" ∨ f.IsPunct ")") (t : OperatorTree) :
    t.EndsBefore x (f :: r) := by
  cases t with
  | joined => exact fun p _ => endsAbove_of_closing hf _
  | _ => trivial

/-- At the weakest level every tree is read. -/
theorem binds_coalescePrecedence (t : OperatorTree) : t.Binds coalescePrecedence := by
  cases t with
  | joined op y z =>
    intro p hp
    rcases infixPrecedence?_cases hp with ⟨-, rfl⟩ | ⟨-, h⟩
    · exact Nat.le_refl _
    · exact Nat.le_of_lt h
  | _ => trivial

/-- A binary expression before a closing token is an expression. -/
theorem Prints.expr_of_binary (h : t.Prints ts) (hf : f.IsPunct ";" ∨ f.IsPunct ")") {n : Node}
    {stop' : Nat} (hbinary : binary (rules d) coalescePrecedence x ⟨ts ++ f :: r, k⟩ =
      .ok (n, ⟨f :: r, stop'⟩)) :
    expr (rules d) x ⟨ts ++ f :: r, k⟩ = .ok (n, ⟨f :: r, stop'⟩) := by
  have hfollows := follows_of_closing hf
  have hconditional : conditional (rules d) x ⟨ts ++ f :: r, k⟩ = .ok (n, ⟨f :: r, stop'⟩) := by
    simp [conditional, run_bind_of_ok hbinary, run_accept_bind,
      hfollows.is_eq (s := "?") (by decide) rfl]
  have hassign : f.is ">" = false ∧ f.text ∉ assignmentOps := by
    rcases hf with hf | hf <;> (rw [hf.is_eq, hf.text]; decide)
  have hlambda := h.lambda?_eq (x := x) (r := r) (k := k) hfollows (rules d)
  obtain ⟨u, us, rfl, hu⟩ := h.exists_cons
  have hthrow : u.is "throw" = false := hu.is_eq (by decide)
  rw [expr, run_offset_bind, run_bind_of_ok hlambda]
  rw [List.cons_append] at hconditional ⊢
  simp [run_accept_bind, hthrow, run_bind_of_ok hconditional, hassign]

/-- The left operand of an operator does not go on behind the operator. -/
theorem endsBefore_operator {op : String} {os : List Token} {p : Nat} (hop : WritesOperator op os)
    (hp : infixPrecedence? op = some p) (ht : t.Binds (leftLevel op p)) {u : Token}
    {us : List Token} (hu : Begins u) : t.EndsBefore x (os ++ u :: us) := by
  cases t with
  | joined op' y z =>
    intro p' hp' k
    refine ⟨_, hop.binaryOp?_eq hp hu, ?_⟩
    rintro _ ⟨⟩
    show p < rightLevel op' p'
    have hle := ht p' hp'
    rcases infixPrecedence?_cases hp with ⟨rfl, rfl⟩ | ⟨hne, h⟩ <;>
      rcases infixPrecedence?_cases hp' with ⟨rfl, rfl⟩ | ⟨hne', h'⟩ <;>
      simp_all [leftLevel, rightLevel] <;> omega
  | _ => trivial

/-- The right operand of an operator ends where the operator's own level does. -/
theorem endsBefore_of_binds {m : Nat} {rest : List Token} (ht : t.Binds m)
    (hends : EndsAbove x m rest) : t.EndsBefore x rest := by
  cases t with
  | joined op y z =>
    intro p hp
    refine hends.mono (Nat.le_trans (ht p hp) ?_)
    rw [rightLevel]
    split <;> omega
  | _ => trivial

/-- What binds tightly binds loosely, too. -/
theorem Binds.mono {m m' : Nat} (h : t.Binds m') (hm : m ≤ m') : t.Binds m := by
  cases t with
  | joined op y z => exact fun p hp => Nat.le_trans hm (h p hp)
  | _ => trivial

/-- Literals are operands. -/
theorem isOperand_literal {u : Token} (hkind : u.kind = .int) :
    IsOperand (.literal u.text) [u] := by
  intro d f r x k _ hf
  exact ⟨_, _, rfl, unary_literal hkind hf (rules d)⟩

/-- A sign in front of an operand makes an operand. -/
theorem IsOperand.signed (h : t.IsOperand ts) {sign : Token} (hkind : sign.kind = .punct)
    (hsign : sign.text ∈ signs) : IsOperand (.signed sign.text t) (sign :: ts) := by
  intro d f r x k hd hf
  obtain ⟨d, rfl⟩ : ∃ n, d = n + 1 := Nat.exists_eq_succ_of_ne_zero (by simp at hd; omega)
  obtain ⟨n, stop', hn, hunary⟩ := h (r := r) (x := x) (k := sign.span.stop)
    (Nat.le_of_succ_le_succ hd) hf
  exact ⟨.unary ⟨sign.span.start, stop'⟩ sign.text n false, stop',
    congrArg (Node.unary .none sign.text · false) hn, unary_signed hkind hsign hunary⟩

/-- Parentheses make an operand of a tree. -/
theorem Climbs.paren (h : t.Climbs ts) (ht : t.Prints ts) {opening closing : Token}
    (hopening : opening.IsPunct "(") (hclosing : closing.IsPunct ")") :
    IsOperand (.paren t) (opening :: (ts ++ [closing])) := by
  intro d f r x k hd hf
  obtain ⟨d, rfl⟩ : ∃ n, d = n + 1 := Nat.exists_eq_succ_of_ne_zero (by simp at hd; omega)
  have hd : ts.length ≤ d := by simp at hd; omega
  obtain ⟨n, stop', hn, hbinary⟩ := h.binary_eq (x := x) (r := f :: r) (k := opening.span.stop)
    hd (follows_of_closing (.inr hclosing)) (binds_coalescePrecedence t)
    (endsBefore_of_closing (.inr hclosing) t) (endsAbove_of_closing (.inr hclosing) _)
  have hunary := ht.unary_paren (k := k) hd hopening hclosing
    (ht.expr_of_binary (.inr hclosing) hbinary) hf
  exact ⟨.paren ⟨opening.span.start, closing.span.stop⟩ n, closing.span.stop,
    congrArg (Node.paren .none) hn, by simpa using hunary⟩

/-- An operator joins two trees that bind tightly enough on their sides. -/
theorem Climbs.joined {op : String} {y z : OperatorTree} {ys os zs : List Token} {p : Nat}
    (hy : y.Climbs ys) (hz : z.Climbs zs) (hop : WritesOperator op os) (hprints : z.Prints zs)
    (hp : infixPrecedence? op = some p) (hybinds : y.Binds (leftLevel op p))
    (hzbinds : z.Binds (rightLevel op p)) : Climbs (.joined op y z) (ys ++ os ++ zs) := by
  intro d m f r x k hd hf hm hends
  obtain ⟨u, us, hzs, hu⟩ := hprints.exists_cons
  obtain ⟨v, vs, hos, hv⟩ := hop.exists_cons
  have hzcons : zs ++ f :: r = u :: (us ++ f :: r) := by rw [hzs]; rfl
  have hocons : os ++ (zs ++ f :: r) = v :: (vs ++ (zs ++ f :: r)) := by rw [hos]; rfl
  have hmp : m ≤ p := hm p hp
  -- The loop comes by the left operand, since the operator binds too loosely to end up below it.
  obtain ⟨start, n, behind, hn, hbinary⟩ := hy (d := d) (m := m) (x := x) (k := k)
    (r := vs ++ (zs ++ f :: r)) (by simp at hd; omega) hv
    (hybinds.mono (by rw [leftLevel]; split <;> omega))
    (by rw [← hocons, hzcons]; exact endsBefore_operator hop hp hybinds hu)
  -- The next round takes the right operand, which is read one level of nesting further down.
  obtain ⟨d, rfl⟩ : ∃ n, d = n + 1 :=
    Nat.exists_eq_succ_of_ne_zero (by simp [hos, hzs] at hd; omega)
  have hright (k : Nat) : ∃ n' stop', n'.erase = z.node ∧
      (rules (d + 1)).binary (rightLevel op p) x ⟨u :: (us ++ f :: r), k⟩ =
        .ok (n', ⟨f :: r, stop'⟩) := by
    rw [← hzcons]
    exact hz.binary_eq (by simp [hos] at hd; omega) hf hzbinds
      (endsBefore_of_binds hzbinds (hends p hp)) (hends p hp)
  obtain ⟨n', stop', hn', hstep⟩ := hop.binaryStep_eq (k := behind) hp hmp hu hright start n
  refine ⟨start, .binary ⟨start, stop'⟩ op n n', stop',
    (congr (congrArg (Node.binary .none op) hn) hn' :), ?_⟩
  rw [List.append_assoc, List.append_assoc, hocons, hbinary, ← hocons, hzcons]
  exact run_extend_some hstep (by simp [hos]; omega)

/-- The loop that reads binary expressions comes by every tree; a tree with no binary operator at
its root is also an operand. -/
theorem Prints.climbs (h : t.Prints ts) (hwell : t.WellBracketed) :
    (t.isJoined = false → t.IsOperand ts) ∧ t.Climbs ts := by
  induction h with
  | literal hkind =>
    have hoperand := isOperand_literal hkind
    exact ⟨fun _ => hoperand, hoperand.climbs⟩
  | paren hopening ht hclosing ih =>
    have hoperand := (ih hwell).2.paren ht hopening hclosing
    exact ⟨fun _ => hoperand, hoperand.climbs⟩
  | signed hkind hsign _ ih =>
    have hoperand := ((ih hwell.2).1 hwell.1).signed hkind hsign
    exact ⟨fun _ => hoperand, hoperand.climbs⟩
  | joined _ hop hz ihy ihz =>
    obtain ⟨p, hp, hybinds, hzbinds, hywell, hzwell⟩ := hwell
    refine ⟨by simp [isJoined], ?_⟩
    exact (ihy hywell).2.joined (ihz hzwell).2 hop hz hp hybinds hzbinds

/-- A well-bracketed tree is read back from its tokens. -/
theorem Prints.expr_reads (h : t.Prints ts) (hwell : t.WellBracketed) (hf : f.IsPunct ";")
    (hd : ts.length ≤ d) :
    ∃ n stop', n.erase = t.node ∧
      expr (rules d) x ⟨ts ++ f :: r, k⟩ = .ok (n, ⟨f :: r, stop'⟩) := by
  have hf : f.IsPunct ";" ∨ f.IsPunct ")" := .inl hf
  obtain ⟨n, stop', hn, hbinary⟩ := (h.climbs hwell).2.binary_eq (x := x) (r := r) (k := k) hd
    (follows_of_closing hf) (binds_coalescePrecedence t) (endsBefore_of_closing hf t)
    (endsAbove_of_closing hf _)
  exact ⟨n, stop', hn, h.expr_of_binary hf hbinary⟩

end Reading

/-- A well-bracketed tree is read back from the tokens that write it, and these tokens are all that
is consumed before a semicolon. So no two well-bracketed trees are written alike. -/
theorem expr_reads_unique {t : OperatorTree} {ts : List Token} (hwell : t.WellBracketed)
    (hts : t.Prints ts) {semi : Token} (hsemi : semi.IsPunct ";") (rest : List Token) (x : Input)
    (stop : Nat) {depth : Nat} (hdepth : ts.length ≤ depth) :
    (∃ n stop', n.erase = t.node ∧
      expr (rules depth) x ⟨ts ++ semi :: rest, stop⟩ = .ok (n, ⟨semi :: rest, stop'⟩)) ∧
      ∀ u : OperatorTree, u.WellBracketed → u.Prints ts → u = t := by
  obtain ⟨n, stop', hn, hread⟩ := hts.expr_reads (x := x) (r := rest) (k := stop) hwell hsemi
    hdepth
  refine ⟨⟨n, stop', hn, hread⟩, ?_⟩
  intro u huwell hu
  obtain ⟨n', stop'', hn', hread'⟩ := hu.expr_reads (x := x) (r := rest) (k := stop) huwell hsemi
    hdepth
  rw [hread] at hread'
  cases hread'
  exact node_injective (hn'.symm.trans hn)

/-- The tree of `-1>>2-(3??4??5)*6`: the shift is the weakest operator outside the parentheses, and
inside them `??` groups to the right. -/
def shiftedDifference : OperatorTree :=
  joined ">>" (signed "-" (literal "1"))
    (joined "-" (literal "2")
      (joined "*" (paren (joined "??" (literal "3") (joined "??" (literal "4") (literal "5"))))
        (literal "6")))

/-- The tokens of `-1>>2-(3??4??5)*6`. -/
def shiftedDifferenceTokens : List Token :=
  [⟨.punct, "-", ⟨0, 1⟩, ""⟩, ⟨.int, "1", ⟨1, 2⟩, ""⟩, ⟨.punct, ">", ⟨2, 3⟩, ""⟩,
   ⟨.punct, ">", ⟨3, 4⟩, ""⟩, ⟨.int, "2", ⟨4, 5⟩, ""⟩, ⟨.punct, "-", ⟨5, 6⟩, ""⟩,
   ⟨.punct, "(", ⟨6, 7⟩, ""⟩, ⟨.int, "3", ⟨7, 8⟩, ""⟩, ⟨.punct, "??", ⟨8, 10⟩, ""⟩,
   ⟨.int, "4", ⟨10, 11⟩, ""⟩, ⟨.punct, "??", ⟨11, 13⟩, ""⟩, ⟨.int, "5", ⟨13, 14⟩, ""⟩,
   ⟨.punct, ")", ⟨14, 15⟩, ""⟩, ⟨.punct, "*", ⟨15, 16⟩, ""⟩, ⟨.int, "6", ⟨16, 17⟩, ""⟩]

theorem shiftedDifference_reads_unique :
    (∃ n stop', n.erase = shiftedDifference.node ∧
      expr (rules 15) ⟨[], Token.final⟩
          ⟨shiftedDifferenceTokens ++ [⟨.punct, ";", ⟨17, 18⟩, ""⟩], 0⟩ =
        .ok (n, ⟨[⟨.punct, ";", ⟨17, 18⟩, ""⟩], stop'⟩)) ∧
      ∀ u : OperatorTree, u.WellBracketed → u.Prints shiftedDifferenceTokens →
        u = shiftedDifference := by
  have hwell : shiftedDifference.WellBracketed := by decide
  have hgroup := Prints.joined (.literal (t := ⟨.int, "3", ⟨7, 8⟩, ""⟩) rfl)
    (.single (t := ⟨.punct, "??", ⟨8, 10⟩, ""⟩) rfl rfl)
    (.joined (.literal (t := ⟨.int, "4", ⟨10, 11⟩, ""⟩) rfl)
      (.single (t := ⟨.punct, "??", ⟨11, 13⟩, ""⟩) rfl rfl)
      (.literal (t := ⟨.int, "5", ⟨13, 14⟩, ""⟩) rfl))
  have hprints : shiftedDifference.Prints shiftedDifferenceTokens :=
    (Prints.joined
      (.signed (by rfl : (⟨.punct, "-", ⟨0, 1⟩, ""⟩ : Token).kind = .punct) (by decide)
        (.literal (t := ⟨.int, "1", ⟨1, 2⟩, ""⟩) rfl))
      (.shift (t := ⟨.punct, ">", ⟨2, 3⟩, ""⟩) (u := ⟨.punct, ">", ⟨3, 4⟩, ""⟩) ⟨rfl, rfl⟩
        ⟨rfl, rfl⟩ rfl)
      (.joined (.literal (t := ⟨.int, "2", ⟨4, 5⟩, ""⟩) rfl)
        (.single (t := ⟨.punct, "-", ⟨5, 6⟩, ""⟩) rfl rfl)
        (.joined
          (.paren (⟨rfl, rfl⟩ : Token.IsPunct ⟨.punct, "(", ⟨6, 7⟩, ""⟩ "(") hgroup
            (⟨rfl, rfl⟩ : Token.IsPunct ⟨.punct, ")", ⟨14, 15⟩, ""⟩ ")"))
          (.single (t := ⟨.punct, "*", ⟨15, 16⟩, ""⟩) rfl rfl)
          (.literal (t := ⟨.int, "6", ⟨16, 17⟩, ""⟩) rfl))) :)
  exact expr_reads_unique hwell hprints ⟨rfl, rfl⟩ [] _ 0 (by decide)

end OperatorTree

end CSharpAudit
