import CSharpAudit.Proofs.Nesting
import CSharpAudit.Proofs.Reading

/-!
# What productions yield

A production reads all layouts of a token sequence alike and yields a value that is laid between the
index where it starts and the one where it ends. Nested constructs are read by the productions that
are handed to it; these are good from an index on if they do so from that index on.

## Main definitions

* `Frames` — a way to make a node out of a span and the parts of the node
* `Layouts.Yields`, `Layouts.Allows`, `Layouts.MayYield` — a production yields a laid value; it
  consumes a token, it may consume none, or it consumes none if it yields no value
* `Layouts.Good` — the productions for nested constructs, from an index on

## Main results

* `Layouts.Laid.frame` — a node is laid if its parts are
* `Layouts.Yields.enclosed`, `Layouts.Yields.separated`, `Layouts.Allows.repeatWhile` — lists of
  laid values are laid
-/

namespace CSharpAudit

open Grammar

/-- `Frames mk` says that `mk` makes nodes: the node covers the given span, and below it are the
nodes of the given parts. -/
structure Frames {α β : Type} [NodeKind α] [Layered β] (mk : Span → β → α) : Prop where
  span : ∀ s x, (NodeKind.node (mk s x)).span = s
  parts : ∀ s x, ∀ c ∈ (NodeKind.node (mk s x)).nodesBelow,
    (NodeKind.node (mk s x)).Synthesises c ∨ c ∈ Layered.nodes x
  chained : ∀ s x, (NodeKind.node (mk s x)).ChainedInside
  erase : ∀ s x, NodeKind.erase (mk s x) = mk .none (Layered.erase x)

/-- A node is framed by its span, and its parts are what it is made of. -/
theorem frames_iff {α β : Type} [NodeKind α] [Layered β] {mk : Span → β → α} :
    Frames mk ↔ (∀ s x, (NodeKind.node (mk s x)).span = s) ∧
      (∀ s x, ∀ c ∈ (NodeKind.node (mk s x)).nodesBelow,
        (NodeKind.node (mk s x)).Synthesises c ∨ c ∈ Layered.nodes x) ∧
      (∀ s x, (NodeKind.node (mk s x)).ChainedInside) ∧
      ∀ s x, NodeKind.erase (mk s x) = mk .none (Layered.erase x) :=
  ⟨fun h => ⟨h.span, h.parts, h.chained, h.erase⟩, fun h => ⟨h.1, h.2.1, h.2.2.1, h.2.2.2⟩⟩

namespace Layouts

variable {ω α β γ : Type} {L : Layouts ω} {i j k l m : Nat}

/-- A node that covers all that is read between two indices is laid there if all below it fit. -/
theorem Laid.node {n : ω → Node} {m : Node}
    (hspan : ∀ w, (n w).span = ⟨L.start w j, L.behind w k⟩)
    (hparts : ∀ w, ∀ c ∈ (n w).nodesBelow, (n w).Synthesises c ∨ L.Fits w j k c)
    (hchained : ∀ w, (n w).ChainedInside) (herase : ∀ w, (n w).erase = m) (hjk : j < k)
    (hk : k ≤ L.size) : L.Laid j k n m where
  fits w c hc := by
    rw [List.mem_singleton.mp hc]
    exact .intro hjk hk (hspan w) (hparts w) (hchained w)
  erase := herase

/-- A node that covers all that is read between two indices is laid there if its parts are. -/
theorem Laid.frame [NodeKind α] [Layered β] {x : ω → β} {b : β} (hx : L.Laid j k x b)
    (mk : Span → β → α) (hmk : Frames mk) (hjk : j < k) (hk : k ≤ L.size) :
    L.Laid j k (fun w => mk ⟨L.start w j, L.behind w k⟩ (x w)) (mk .none b) where
  fits w n hn := by
    rw [List.mem_singleton.mp hn]
    exact .intro hjk hk (hmk.span _ _) (fun c hc => (hmk.parts _ _ c hc).imp_right (hx.fits w c))
      (hmk.chained _ _)
  erase w := by
    rw [← hx.erase w]
    exact hmk.erase _ _

variable [Layered α] [Layered β]

/-- A value that is the same in all layouts. -/
def Uniform (a : ω → γ) : Prop := ∃ c, a = fun _ => c

variable (L) in
/-- From the token at `j` on, a token is consumed and a value is yielded that is laid from `i`
on. -/
def Yields (i : Nat) (p : ω → Parser α) (j : Nat) : Prop :=
  L.Reads p j fun a k => j < k ∧ ∃ b, L.Laid i k a b

variable (L) in
/-- From the token at `j` on, a value is yielded that is laid from `i` on. -/
def Allows (i : Nat) (p : ω → Parser α) (j : Nat) : Prop :=
  L.Reads p j fun a k => j ≤ k ∧ ∃ b, L.Laid i k a b

variable {p : ω → Parser α} {f : ω → α → Parser γ} {Q : (ω → γ) → Nat → Prop}

/-- What a production yields is laid where it was read. -/
theorem Yields.bind (h : L.Yields i p j)
    (hf : ∀ a b k, j < k → L.Laid i k a b → L.Reads (fun w => f w (a w)) k Q) :
    L.Reads (fun w => p w >>= f w) j Q :=
  Reads.bind h fun a k hread => hread.2.elim fun b hab => hf a b k hread.1 hab

theorem Allows.bind (h : L.Allows i p j)
    (hf : ∀ a b k, j ≤ k → L.Laid i k a b → L.Reads (fun w => f w (a w)) k Q) :
    L.Reads (fun w => p w >>= f w) j Q :=
  Reads.bind h fun a k hread => hread.2.elim fun b hab => hf a b k hread.1 hab

/-- A production that consumes a token may be one that consumes none. -/
theorem Yields.allows (h : L.Yields i p j) : L.Allows i p j :=
  Reads.imp h fun _ _ _ hread => ⟨Nat.le_of_lt hread.1, hread.2⟩

variable (L) in
/-- From the token at `j` on, either nothing is consumed and yielded, or a token is consumed and a
value is yielded that is laid from `i` on. -/
def MayYield (i : Nat) (p : ω → Parser (Option α)) (j : Nat) : Prop :=
  L.Reads p j (Perhaps (fun a k => j < k ∧ ∃ b, L.Laid i k a b) (· = j))

/-- Without a value, the next production starts where this one did. -/
theorem MayYield.bind {p : ω → Parser (Option α)} {f : ω → Option α → Parser γ}
    (h : L.MayYield i p j) (hnone : L.Reads (fun w => f w none) j Q)
    (hsome : ∀ a b k, j < k → L.Laid i k a b → L.Reads (fun w => f w (some (a w))) k Q) :
    L.Reads (fun w => p w >>= f w) j Q :=
  Reads.bindPerhaps h (fun _ hk => hk ▸ hnone) fun a k hread =>
    hread.2.elim fun b hab => hsome a b k hread.1 hab

/-- A production that is only tried. -/
theorem Yields.attempt (h : L.Yields i p j) : L.MayYield i (fun w => Grammar.attempt (p w)) j :=
  Reads.attempt h

theorem Yields.some (h : L.Yields i p j) :
    L.MayYield i (fun w => do return some (← p w)) j :=
  h.bind fun _ b _ hjk hab => .pure fun _ => .some ⟨hjk, b, hab⟩

/-- Something optional is laid also if it is missing. -/
theorem MayYield.allows {p : ω → Parser (Option α)} (h : L.MayYield i p j) : L.Allows i p j := by
  refine Reads.imp h ?_
  rintro o k - (⟨rfl, rfl⟩ | ⟨a, rfl, hjk, b, hab⟩)
  · exact ⟨Nat.le_refl k, none, .none⟩
  · exact ⟨Nat.le_of_lt hjk, Option.some b, hab.some⟩

/-- A value that is extended step by step stays laid. -/
theorem Allows.extend {step : ω → α → Parser (Option α)} {a : ω → α} {b : α} (ha : L.Laid i j a b)
    (hstep : ∀ a b k, j ≤ k → L.Laid i k a b → L.MayYield i (fun w => step w (a w)) k) :
    L.Allows i (fun w => Grammar.extend (step w) (a w)) j :=
  Reads.extend (P := fun a k => ∃ b, L.Laid i k a b)
    (fun a k hk hlaid => hlaid.elim fun b hab => hstep a b k hk hab) ⟨b, ha⟩

/-- A value that is the same in all layouts. -/
theorem Reads.bindUniform {δ : Type} {p : ω → Parser δ} {f : ω → δ → Parser γ} {C : Nat → Prop}
    (h : L.Reads p j fun a k => C k ∧ Uniform a)
    (hf : ∀ c k, C k → L.Reads (fun w => f w c) k Q) : L.Reads (fun w => p w >>= f w) j Q := by
  refine h.bind ?_
  rintro - k ⟨hk, c, rfl⟩
  exact hf c k hk

theorem uniform_textOf {ss : List String} :
    L.Reads (fun _ => textOf ss) j fun a k => j ≤ k ∧ Uniform a := by
  rw [reads_iff_bind_pure, reads_textOf]
  exact ⟨fun _ => .pure fun _ => ⟨by omega, _, rfl⟩, fun _ => .pure fun _ => ⟨by omega, _, rfl⟩⟩

theorem uniform_optionalIdent :
    L.Reads (fun _ => optionalIdent) j fun a k => j ≤ k ∧ Uniform a := by
  rw [reads_iff_bind_pure, reads_optionalIdent]
  exact ⟨fun _ => .pure fun _ => ⟨by omega, _, rfl⟩, fun _ => .pure fun _ => ⟨by omega, _, rfl⟩⟩

/-- Whether a token is there is the same in all layouts. -/
theorem uniform_accept {s : String} :
    L.Reads (fun _ => accept s) j fun a k => j ≤ k ∧ Uniform a := by
  rw [reads_iff_bind_pure, reads_accept]
  exact ⟨fun _ => .pure fun _ => ⟨by omega, _, rfl⟩, fun _ => .pure fun _ => ⟨by omega, _, rfl⟩⟩

theorem uniform_acceptWord {s : String} :
    L.Reads (fun _ => acceptWord s) j fun a k => j ≤ k ∧ Uniform a := by
  rw [reads_iff_bind_pure, reads_acceptWord]
  exact ⟨fun _ => .pure fun _ => ⟨by omega, _, rfl⟩, fun _ => .pure fun _ => ⟨by omega, _, rfl⟩⟩

/-- What is read from a later token on is read since an earlier one. -/
theorem Yields.since (h : L.Yields i p k) (hjk : j ≤ k) :
    L.Reads p k fun a l => j < l ∧ ∃ b, L.Laid i l a b :=
  Reads.imp h fun _ _ _ hread => ⟨Nat.lt_of_le_of_lt hjk hread.1, hread.2⟩

/-! ### Lists -/

variable {item : ω → Parser α} {cond : ω → Parser Bool} {opening closing : String}

/-- A list is laid if each round is. -/
theorem Gathers.laid {as : ω → List α} (h : Gathers (fun j a k => ∃ b, L.Laid j k a b) j as k) :
    ∃ bs, L.Laid j k as bs := by
  obtain ⟨xs, rfl, hxs⟩ := h
  induction xs with
  | nil => exact ⟨[], .nil⟩
  | cons x xs ih =>
    obtain ⟨bs, hbs⟩ := ih fun y hy => hxs y (List.mem_cons_of_mem x hy)
    obtain ⟨l, m, hl, hm, b, hb⟩ := hxs x List.mem_cons_self
    exact ⟨b :: bs, (hb.mono hl hm).cons hbs⟩

theorem Gathers.uniform {as : ω → List γ} (h : Gathers (fun _ a _ => Uniform a) j as k) :
    Uniform as := by
  obtain ⟨xs, rfl, hxs⟩ := h
  induction xs with
  | nil => exact ⟨[], rfl⟩
  | cons x xs ih =>
    obtain ⟨cs, hcs⟩ := ih fun y hy => hxs y (List.mem_cons_of_mem x hy)
    obtain ⟨-, -, -, -, c, rfl⟩ := hxs x List.mem_cons_self
    exact ⟨c :: cs, funext fun w => congrArg (c :: ·) (congrFun hcs w)⟩

/-- Lists with commas are laid if their items are. -/
theorem Yields.separated (h : ∀ k, j ≤ k → L.Yields k item k) :
    L.Yields j (fun w => Grammar.separated (item w)) j :=
  (Reads.separated (I := fun j a k => ∃ b, L.Laid j k a b) (n := 1) h).imp
    fun _ _ _ hread => ⟨hread.1, hread.2.laid⟩

theorem Allows.moreItems (h : ∀ k, j < k → L.Yields k item k) :
    L.Allows j (fun w => Grammar.moreItems (item w)) j :=
  (Reads.moreItems (I := fun j a k => ∃ b, L.Laid j k a b) fun k hk => (h k hk).allows).imp
    fun _ _ _ hread => ⟨hread.1, hread.2.laid⟩

/-- Lists up to a closing token are laid if their items are. -/
theorem Allows.listUntil (h : ∀ k, j ≤ k → L.Yields k item k) :
    L.Allows j (fun w => Grammar.listUntil closing (item w)) j :=
  (Reads.listUntil (I := fun j a k => ∃ b, L.Laid j k a b) h).imp
    fun _ _ _ hread => ⟨hread.1, hread.2.laid⟩

/-- Lists in brackets are laid if their items are. -/
theorem Yields.enclosed (h : ∀ k, j < k → L.Yields k item k) :
    L.Yields j (fun w => Grammar.enclosed opening closing (item w)) j :=
  (Reads.enclosed (I := fun j a k => ∃ b, L.Laid j k a b) h).imp
    fun _ _ _ hread => ⟨hread.1, hread.2.laid⟩

/-! ### Optional parts -/

variable (L) in
/-- A test that consumes the tokens from `j` to `k` if it holds, and none otherwise. -/
def Tests (cond : Parser Bool) (j k : Nat) (holds : Prop) : Prop :=
  L.Reads (fun _ => cond) j fun c l =>
    ((c = fun _ => true) ∧ l = k ∧ holds) ∨ ((c = fun _ => false) ∧ l = j)

variable {s : String} {test : Parser Bool} {holds : Prop}

theorem tests_pure {c : Bool} : L.Tests (pure c) j j (c = true) :=
  .pure fun _ => by cases c <;> simp

theorem Tests.imp {holds' : Prop} (h : L.Tests test j k holds) (himp : holds → holds') :
    L.Tests test j k holds' :=
  Reads.imp h fun _ _ _ hc => hc.imp_left fun h => ⟨h.1, h.2.1, himp h.2.2⟩

/-- A test for a text consumes nothing. -/
theorem tests_is : L.Tests (is s) j j ((L.lexeme j).is s = true) := by
  rw [Tests, reads_iff_bind_pure, reads_is]
  exact tests_pure

theorem tests_isNot : L.Tests (isNot s) j j ((L.lexeme j).is s = false) := by
  rw [Tests, reads_iff_bind_pure, reads_isNot]
  exact tests_pure.imp (by simp)

theorem tests_isWord : L.Tests (isWord s) j j ((L.lexeme j).isWord s = true) := by
  rw [Tests, reads_iff_bind_pure, reads_isWord]
  exact tests_pure

/-- An optional token is consumed by its test. -/
theorem tests_accept : L.Tests (accept s) j (j + 1) True := by
  rw [Tests, reads_iff_bind_pure, reads_accept]
  exact ⟨fun _ => .pure fun _ => .inl ⟨rfl, rfl, trivial⟩, fun _ => .pure fun _ => .inr ⟨rfl, rfl⟩⟩

theorem tests_acceptWord : L.Tests (acceptWord s) j (j + 1) True := by
  rw [Tests, reads_iff_bind_pure, reads_acceptWord]
  exact ⟨fun _ => .pure fun _ => .inl ⟨rfl, rfl, trivial⟩, fun _ => .pure fun _ => .inr ⟨rfl, rfl⟩⟩

/-- An optional part begins behind its test. -/
theorem Tests.optionalPart {p : ω → Parser γ} (htest : L.Tests test j k holds)
    (hp : holds → L.Reads p k Q) :
    L.Reads (fun w => Grammar.optionalPart test (p w)) j (Perhaps Q (· = j)) := by
  refine Reads.bind htest fun c l hc => ?_
  rcases hc with ⟨rfl, rfl, h⟩ | ⟨rfl, rfl⟩
  · exact (hp h).bind fun a m ha => .pure fun _ => .some ha
  · exact .pure fun _ => .none rfl

/-- An optional part is laid also if it is missing. -/
theorem Allows.optionalPart (htest : L.Tests test j k holds) (hjk : j ≤ k)
    (hp : holds → L.Allows k p k) :
    L.Allows j (fun w => Grammar.optionalPart test (p w)) j := by
  refine (htest.optionalPart hp).imp ?_
  rintro o l - (⟨rfl, rfl⟩ | ⟨a, rfl, hkl, b, hab⟩)
  · exact ⟨Nat.le_refl l, none, .none⟩
  · exact ⟨by omega, some b, (hab.mono hjk (Nat.le_refl l)).some⟩

theorem Allows.optionalList {p : ω → Parser (List α)} (htest : L.Tests test j k holds)
    (hjk : j ≤ k) (hp : holds → L.Allows k p k) :
    L.Allows j (fun w => Grammar.optionalList test (p w)) j := by
  refine Reads.bind htest fun c l hc => ?_
  rcases hc with ⟨rfl, rfl, h⟩ | ⟨rfl, rfl⟩
  · refine Reads.imp (hp h) fun a m _ hread => ?_
    obtain ⟨hm, b, hab⟩ := hread
    exact ⟨by omega, b, hab.mono hjk (Nat.le_refl m)⟩
  · exact .pure fun _ => ⟨Nat.le_refl l, [], .nil⟩

theorem Reads.skipIf {p : ω → Parser γ} {Q : (ω → γ) → Nat → Prop}
    (htest : L.Tests test j k holds) (hjk : j ≤ k) (hp : holds → L.Reads p k Q)
    (hQ : ∀ a l, Q a l → k ≤ l) :
    L.Reads (fun w => Grammar.skipIf test (p w)) j fun _ l => j ≤ l := by
  refine Reads.bind htest fun c l hc => ?_
  rcases hc with ⟨rfl, rfl, h⟩ | ⟨rfl, rfl⟩
  · simp only [if_true]
    rw [reads_iff_bind_pure, reads_discard]
    exact (hp h).bind fun a m ha => .pure fun _ => Nat.le_trans hjk (hQ a m ha)
  · exact .pure fun _ => Nat.le_refl l

/-- A loop reads laid values, and if it reads any, it consumes a token. -/
theorem Yields.repeatWhile {holds : Nat → Prop}
    (htest : ∀ k, j ≤ k → L.Tests test k k (holds k))
    (hitem : ∀ k, j ≤ k → holds k → L.Yields k item k) :
    L.Reads (fun w => Grammar.repeatWhile test (item w)) j fun as k =>
      ((as = fun _ => []) ∨ j < k) ∧ j ≤ k ∧ ∃ bs, L.Laid j k as bs := by
  refine (Reads.repeatWhile (I := fun j a k => j < k ∧ ∃ b, L.Laid j k a b) fun k hk => ?_).imp ?_
  · refine ((htest k hk).optionalPart (hitem k hk)).imp ?_
    rintro o l - (⟨rfl, rfl⟩ | ⟨a, rfl, ha⟩)
    · exact .none (Nat.le_refl l)
    · exact .some ⟨ha.1, ha⟩
  · rintro as k - ⟨hjk, xs, rfl, hxs⟩
    refine ⟨?_, hjk, Gathers.laid ⟨xs, rfl, fun x hx => ?_⟩⟩
    · cases xs with
      | nil => exact .inl rfl
      | cons x xs =>
        obtain ⟨l, m, hl, hm, hlm, -⟩ := hxs x List.mem_cons_self
        exact .inr (by omega)
    · obtain ⟨l, m, hl, hm, -, h⟩ := hxs x hx
      exact ⟨l, m, hl, hm, h⟩

/-- Loops whose rounds are laid. -/
theorem Allows.repeatWhile {holds : Nat → Prop}
    (htest : ∀ k, j ≤ k → L.Tests test k k (holds k))
    (hitem : ∀ k, j ≤ k → holds k → L.Yields k item k) :
    L.Allows j (fun w => Grammar.repeatWhile test (item w)) j :=
  (Yields.repeatWhile htest hitem).imp fun _ _ _ h => h.2

/-- A loop that goes on as long as a token `s` follows consumes some if one follows at once. -/
theorem Yields.repeatWhileIs (h : (L.lexeme j).is s = true)
    (hitem : ∀ k, j ≤ k → (L.lexeme k).is s = true → L.Yields k item k) :
    L.Yields j (fun w => Grammar.repeatWhile (is s) (item w)) j := by
  simp only [Yields, Grammar.repeatWhile, reads_bound, repeatFuel_succ, reads_tokensLeft,
    Grammar.optionalPart, bind_assoc, reads_is, h, if_true, pure_bind]
  refine (hitem j (Nat.le_refl j) h).bind fun a b k hjk ha => ?_
  refine reads_nextRound_bind hjk (.of_le fun hk => ?_)
  refine (Reads.repeatFuel (I := fun j a k => ∃ b, L.Laid j k a b) (by omega)
    fun l hl => ?_).bind fun as l hread => ?_
  · refine (tests_is.optionalPart (hitem l (by omega))).imp ?_
    rintro o m - (⟨rfl, rfl⟩ | ⟨c, rfl, hc⟩)
    · exact .none (Nat.le_refl m)
    · exact .some hc
  · obtain ⟨hkl, has⟩ := hread
    obtain ⟨bs, hbs⟩ := has.laid
    refine .pure fun _ => ⟨by omega, b :: bs, ?_⟩
    exact (ha.mono (Nat.le_refl j) hkl).cons (hbs.mono (Nat.le_of_lt hjk) (Nat.le_refl l))

theorem Yields.unlessEnd {cause : SyntaxError.Cause} (hcause : cause.isEndless = false)
    (hp : L.Yields i p j) : L.Yields i (fun w => Grammar.unlessEnd cause (p w)) j :=
  Reads.unlessEnd hcause fun _ => hp

/-! ### Nested constructs -/

/-- Productions that read nested constructs as they should from the token at `b` on. -/
structure Good (L : Layouts ω) (b : Nat) (rules : Rules) : Prop where
  type : ∀ {j}, b ≤ j → L.Yields j (fun _ => rules.type) j
  expr : ∀ {j}, b ≤ j → L.Yields j (fun _ => rules.expr) j
  unary : ∀ {j}, b ≤ j → L.Yields j (fun _ => rules.unary) j
  binary : ∀ {j minimum}, b ≤ j → L.Yields j (fun _ => rules.binary minimum) j
  pattern : ∀ {j}, b ≤ j → L.Yields j (fun _ => rules.pattern) j
  primaryPattern : ∀ {j}, b ≤ j → L.Yields j (fun _ => rules.primaryPattern) j
  initializer : ∀ {j}, b ≤ j → L.Reads (fun _ => rules.initializer) j fun a k =>
    j < k ∧ ∃ b, L.Laid j k (fun w => Node.initializer (a w).2 (a w).1) b
  block : ∀ {j}, b ≤ j → L.Yields j (fun _ => rules.block) j
  statement : ∀ {j}, b ≤ j → L.Yields j (fun _ => rules.statement) j
  member : ∀ {j}, b ≤ j → L.Yields j (fun _ => rules.member) j
  namespaceDecl : ∀ {j}, b ≤ j → L.Yields j (fun _ => rules.namespaceDecl) j

end Layouts

/-! ### Types that are not written -/

namespace TypeRef

/-- Some types, where `d` stands for those that are not written. -/
def fill (d : TypeRef) (os : List (Option TypeRef)) : List TypeRef := os.map fun o => o.getD d

@[simp] theorem erase_omitted : omitted.erase = omitted := rfl

@[simp] theorem erase_newConstraint : newConstraint.erase = newConstraint := rfl

/-- A default without spans is not changed by erasure. -/
theorem map_erase_fill {d : TypeRef} (hd : d.erase = d) (os : List (Option TypeRef)) :
    (fill d os).map erase = fill d (os.map (Option.map erase)) := by
  simp only [fill, List.map_map]
  refine List.map_congr_left fun o _ => ?_
  cases o with
  | none => exact hd
  | some t => rfl

theorem mem_map_type_fill {d : TypeRef} {os : List (Option TypeRef)} {c : Node}
    (h : c ∈ (fill d os).map .type) : c = .type d ∨ c ∈ Layered.nodes os := by
  simp only [fill, List.map_map, List.mem_map, Function.comp_apply] at h
  obtain ⟨o, ho, rfl⟩ := h
  cases o with
  | none => exact .inl rfl
  | some t => exact .inr (List.mem_flatMap.mpr ⟨some t, ho, List.mem_singleton.mpr rfl⟩)

end TypeRef

namespace Layouts

variable {ω : Type} {L : Layouts ω} {i j k l : Nat} {d : TypeRef} {ts : ω → List TypeRef}

variable (L) in
/-- Types that are laid between two indices, but for those that are `d` and not written at all. -/
def LaidBut (d : TypeRef) (j k : Nat) (ts : ω → List TypeRef) : Prop :=
  ∃ (os : ω → List (Option TypeRef)) (bs : List (Option TypeRef)),
    L.Laid j k os bs ∧ ts = fun w => d.fill (os w)

/-- What is laid between two indices is laid between indices further apart. -/
theorem LaidBut.mono (h : L.LaidBut d j k ts) (hij : i ≤ j) (hkl : k ≤ l) :
    L.LaidBut d i l ts := by
  obtain ⟨os, bs, hos, rfl⟩ := h
  exact ⟨os, bs, hos.mono hij hkl, rfl⟩

theorem LaidBut.nil : L.LaidBut d j k fun _ => [] := ⟨fun _ => [], [], .nil, rfl⟩

theorem Laid.laidBut {bs : List TypeRef} (h : L.Laid j k ts bs) (d : TypeRef) :
    L.LaidBut d j k ts := by
  refine ⟨fun w => (ts w).map Option.some, bs.map Option.some, ?_, ?_⟩
  · exact h.listMap (fun w t ht n hn => ht n (by simpa [Layered.nodes] using hn)) fun _ => rfl
  · simp [TypeRef.fill, Function.comp_def]

/-- A list with parts that are not written is laid but for these. -/
theorem Gathers.laidBut
    (h : Gathers (fun j t k => ∃ (o : ω → Option TypeRef) (b : Option TypeRef),
      L.Laid j k o b ∧ t = fun w => (o w).getD d) j ts k) :
    L.LaidBut d j k ts := by
  obtain ⟨xs, rfl, hxs⟩ := h
  induction xs with
  | nil => exact .nil
  | cons x xs ih =>
    obtain ⟨os, bs, hos, heq⟩ := ih fun y hy => hxs y (List.mem_cons_of_mem x hy)
    obtain ⟨l, m, hl, hm, o, b, ho, rfl⟩ := hxs x List.mem_cons_self
    refine ⟨fun w => o w :: os w, b :: bs, (ho.mono hl hm).cons hos, funext fun w => ?_⟩
    exact congrArg _ (congrFun heq w)

end Layouts

end CSharpAudit
