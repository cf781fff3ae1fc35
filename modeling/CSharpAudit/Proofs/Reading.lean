import CSharpAudit.Proofs.Layouts

/-!
# Reading all layouts alike

A parser reads all layouts of a token sequence alike if it reaches the same index in all of them, or
stops at a fault in all of them. No fault may tell of a reading without end: neither nesting nor a
loop goes further than the tokens do.

## Main definitions

* `Layouts.Faults` — a fault of the text at one of its tokens
* `Layouts.Reads` — a parser reads all layouts alike and yields values with a given property
* `Layouts.Perhaps` — what a parser of something optional yields

## Main results

* `Layouts.Reads.bind` — parsers that read all layouts alike may be put one after the other
* `Layouts.Reads.and` — what is known of a reading from two sides holds together
* `Layouts.Reads.attempt` — a speculative reading starts again where it began
* `Layouts.Reads.repeatWhile`, `Layouts.Reads.listUntil`, `Layouts.Reads.extend`,
  `Layouts.Reads.skipBalanced` — the loops of the grammar end, since each round consumes a token
-/

namespace CSharpAudit

/-- Only nesting that is too deep and a loop without progress count as endless. -/
@[simp] theorem SyntaxError.Cause.isEndless_eq_false {cause : SyntaxError.Cause} :
    cause.isEndless = false ↔ cause ≠ .tooDeep ∧ cause ≠ .stalled := by
  cases cause <;> simp [isEndless]

open Grammar

namespace Layouts

variable {ω α β : Type} (L : Layouts ω)

/-- A fault of the text, found at one of its tokens. -/
structure Faults (w : ω) (e : SyntaxError) : Prop where
  isEndless_eq : e.cause.isEndless = false
  offset_eq : ∃ j ≤ L.size, e.offset = L.start w j

/-- From the token at `j` on, the parsers `p` either reach one index in all texts and yield values
for which `Q` holds, or stop at a fault in all texts. -/
def Reads (p : ω → Parser α) (j : Nat) (Q : (ω → α) → Nat → Prop) : Prop :=
  j ≤ L.size →
    (∃ a k, k ≤ L.size ∧ Q a k ∧
      ∀ w, p w (L.input w) (L.cursor w j) = .ok (a w, L.cursor w k)) ∨
    ∃ e : ω → SyntaxError, ∀ w,
      p w (L.input w) (L.cursor w j) = .error (e w) ∧ L.Faults w (e w)

/-- What a parser of something optional yields: nothing, or values for which `P` holds. -/
def Perhaps (P : (ω → α) → Nat → Prop) (Z : Nat → Prop) (o : ω → Option α) (k : Nat) : Prop :=
  ((o = fun _ => none) ∧ Z k) ∨ ∃ a, (o = fun w => some (a w)) ∧ P a k

variable {L} {i j k l : Nat} {P Q : (ω → α) → Nat → Prop} {R : (ω → β) → Nat → Prop}
  {p : ω → Parser α} {f : ω → α → Parser β}

/-! ### Composition -/

/-- One parser behind another, at a cursor. -/
theorem run_bind (p : Parser α) (f : α → Parser β) (x : Input) (c : Grammar.Cursor) :
    (p >>= f) x c = (p x c >>= fun a => f a.1 x a.2) := rfl

theorem discard_bind (p : Parser α) (g : Unit → Parser β) :
    discard p >>= g = p >>= fun _ => g () := by
  rw [Functor.discard, LawfulFunctor.map_const]
  simp [Function.const]

/-- What is known of a reading may be weakened. -/
theorem Reads.imp (h : L.Reads p j P) (hPQ : ∀ a k, k ≤ L.size → P a k → Q a k) :
    L.Reads p j Q := by
  intro hj
  refine (h hj).imp_left fun hread => ?_
  obtain ⟨a, k, hk, ha, hrun⟩ := hread
  exact ⟨a, k, hk, hPQ a k hk ha, hrun⟩

theorem Reads.of_le (h : j ≤ L.size → L.Reads p j P) : L.Reads p j P := fun hj => h hj hj

/-- A parser that reads nothing stays where it is. -/
theorem Reads.pure {a : ω → α} (h : j ≤ L.size → Q a j) : L.Reads (fun w => Pure.pure (a w)) j Q :=
  fun hj => .inl ⟨a, j, hj, h hj, fun _ => rfl⟩

/-- Parsers that read all layouts alike may be put one after the other. -/
theorem Reads.bind (hp : L.Reads p j P)
    (hf : ∀ a k, P a k → L.Reads (fun w => f w (a w)) k R) :
    L.Reads (fun w => p w >>= f w) j R := by
  intro hj
  simp only [run_bind]
  rcases hp hj with ⟨a, k, hk, ha, hrun⟩ | ⟨e, he⟩
  · rcases hf a k ha hk with ⟨b, l, hl, hb, hrun'⟩ | ⟨e, he⟩
    · exact .inl ⟨b, l, hl, hb, fun w => by rw [hrun w]; exact hrun' w⟩
    · exact .inr ⟨e, fun w => ⟨by rw [hrun w]; exact (he w).1, (he w).2⟩⟩
  · exact .inr ⟨e, fun w => ⟨by rw [(he w).1]; rfl, (he w).2⟩⟩

theorem reads_iff_bind_pure : L.Reads p j P ↔ L.Reads (fun w => p w >>= Pure.pure) j P := by
  simp only [bind_pure]

/-- A step whose outcome is known. -/
theorem reads_bind_of_run {a : ω → α} (hjk : j ≤ L.size ↔ k ≤ L.size)
    (hrun : j ≤ L.size → ∀ w, p w (L.input w) (L.cursor w j) = .ok (a w, L.cursor w k)) :
    L.Reads (fun w => p w >>= f w) j R ↔ L.Reads (fun w => f w (a w)) k R := by
  have heq (hj : j ≤ L.size) (w : ω) : (p w >>= f w) (L.input w) (L.cursor w j) =
      f w (a w) (L.input w) (L.cursor w k) := by
    rw [run_bind, hrun hj w]
    rfl
  refine ⟨fun h hk => ?_, fun h hj => ?_⟩
  · have := h (hjk.mpr hk)
    simpa only [heq (hjk.mpr hk)] using this
  · have := h (hjk.mp hj)
    simpa only [heq hj] using this

/-- A parser that stops at a fault does so whatever follows. -/
theorem reads_of_fault {e : ω → SyntaxError}
    (h : j ≤ L.size → ∀ w, p w (L.input w) (L.cursor w j) = .error (e w) ∧ L.Faults w (e w)) :
    L.Reads p j P :=
  fun hj => .inr ⟨e, h hj⟩

/-! ### Choices -/

/-- Of a choice, the side that is taken has to read all layouts alike. -/
@[simp] theorem reads_ite {c : Prop} [Decidable c] {q : ω → Parser α} :
    L.Reads (fun w => if c then p w else q w) j P ↔
      (c → L.Reads p j P) ∧ (¬c → L.Reads q j P) := by
  by_cases h : c <;> simp [h]

theorem Perhaps.none {Z : Nat → Prop} (h : Z k) :
    Perhaps P Z (fun _ => Option.none) k :=
  .inl ⟨rfl, h⟩

theorem Perhaps.some {Z : Nat → Prop} {a : ω → α} (h : P a k) :
    Perhaps P Z (fun w => Option.some (a w)) k :=
  .inr ⟨a, rfl, h⟩

/-- Going on behind a parser of something optional. -/
theorem Reads.bindPerhaps {o : ω → Parser (Option α)} {g : ω → Option α → Parser β}
    {Z : Nat → Prop} (ho : L.Reads o j (Perhaps P Z))
    (hnone : ∀ k, Z k → L.Reads (fun w => g w Option.none) k R)
    (hsome : ∀ a k, P a k → L.Reads (fun w => g w (Option.some (a w))) k R) :
    L.Reads (fun w => o w >>= g w) j R := by
  refine ho.bind fun o k ho => ?_
  rcases ho with ⟨rfl, hZ⟩ | ⟨a, rfl, ha⟩
  · exact hnone k hZ
  · exact hsome a k ha

/-! ### Knowledge from several sides -/

/-- Different indices have different cursors. -/
theorem eq_of_cursor_eq {w : ω} (hj : j ≤ L.size) (hk : k ≤ L.size)
    (h : L.cursor w j = L.cursor w k) : j = k := by
  have hrest : (L.tokens w).length - j = (L.tokens w).length - k := by
    simpa [Texts.cursor] using congrArg (fun c => c.rest.length) h
  rw [L.length_tokens] at hrest
  omega

/-- What is known of a parser holds together with what is known of another one that yields what it
does. -/
theorem Reads.andOf [Nonempty ω] {q : ω → Parser α} (hp : L.Reads p j P) (hq : L.Reads q j Q)
    (hsame : ∀ w c a c', p w (L.input w) c = .ok (a, c') → q w (L.input w) c = .ok (a, c')) :
    L.Reads p j fun a k => P a k ∧ Q a k := by
  intro hj
  obtain ⟨v⟩ := ‹Nonempty ω›
  rcases hp hj with ⟨a, k, hk, ha, hrun⟩ | he
  · have hrun' (w : ω) := hsame w _ _ _ (hrun w)
    rcases hq hj with ⟨a', k', hk', ha', hok⟩ | ⟨e, he⟩
    · -- both are told of one run, which yields one value and stops at one token
      have heq (w : ω) := Except.ok.inj ((hrun' w).symm.trans (hok w))
      obtain rfl : a = a' := funext fun w => congrArg Prod.fst (heq w)
      obtain rfl : k = k' := eq_of_cursor_eq hk hk' (congrArg Prod.snd (heq v))
      exact .inl ⟨a, k, hk, ⟨ha, ha'⟩, hrun⟩
    · have := (hrun' v).symm.trans (he v).1
      cases this
  · exact .inr he

/-- What is known of a reading from two sides holds together. -/
theorem Reads.and [Nonempty ω] (hp : L.Reads p j P) (hq : L.Reads p j Q) :
    L.Reads p j fun a k => P a k ∧ Q a k :=
  hp.andOf hq fun _ _ _ _ h => h

/-- What is known of something optional from two sides holds together. -/
theorem Perhaps.and [Nonempty ω] {Z Z' : Nat → Prop} {o : ω → Option α} (hp : Perhaps P Z o k)
    (hq : Perhaps Q Z' o k) : Perhaps (fun a k => P a k ∧ Q a k) Z o k := by
  obtain ⟨v⟩ := ‹Nonempty ω›
  rcases hp with ⟨rfl, hk⟩ | ⟨a, rfl, ha⟩
  · exact .none hk
  · rcases hq with ⟨hnone, -⟩ | ⟨a', hsome, ha'⟩
    · exact absurd (congrFun hnone v) (Option.some_ne_none _)
    · obtain rfl : a = a' := funext fun w => Option.some.inj (congrFun hsome w)
      exact .some ⟨ha, ha'⟩

/-! ### Single tokens -/

/-- A look at a token leaves the cursor where it is. -/
theorem run_peek (w : ω) (n j : Nat) :
    peek n (L.input w) (L.cursor w j) = .ok (L.token w (j + n), L.cursor w j) := by
  rw [Texts.token, ← List.getElem?_drop]
  rfl

/-- A token that is consumed leaves the cursor behind it. -/
theorem run_advance (w : ω) (h : j < L.size) :
    advance (L.input w) (L.cursor w j) = .ok (L.token w j, L.cursor w (j + 1)) := by
  have hj : j < (L.tokens w).length := by rwa [L.length_tokens]
  have hrest : (L.tokens w).drop j = L.token w j :: (L.tokens w).drop (j + 1) := by
    rw [L.token_eq_getElem hj]
    exact List.drop_eq_getElem_cons hj
  rw [Texts.cursor, hrest]
  rfl

theorem run_tokensLeft (w : ω) (j : Nat) :
    tokensLeft (L.input w) (L.cursor w j) = .ok (L.size - j, L.cursor w j) := by
  rw [← L.length_tokens w, ← List.length_drop]
  rfl

variable {n : Nat} {s : String} {ss : List String} {Q : (ω → β) → Nat → Prop}

/-- A look at a token yields the token of the layout. -/
@[simp] theorem reads_peek {f : ω → Token → Parser β} :
    L.Reads (fun w => peek n >>= f w) j Q ↔ L.Reads (fun w => f w (L.token w (j + n))) j Q :=
  reads_bind_of_run Iff.rfl fun _ w => run_peek w n j

@[simp] theorem reads_current {f : ω → Token → Parser β} :
    L.Reads (fun w => current >>= f w) j Q ↔ L.Reads (fun w => f w (L.token w j)) j Q :=
  reads_peek

/-- A start is read from the layout. -/
@[simp] theorem reads_offset {f : ω → Nat → Parser β} :
    L.Reads (fun w => offset >>= f w) j Q ↔ L.Reads (fun w => f w (L.start w j)) j Q := by
  simp [offset, Texts.start]

@[simp] theorem reads_peekIs {f : ω → Bool → Parser β} :
    L.Reads (fun w => peekIs n s >>= f w) j Q ↔
      L.Reads (fun w => f w ((L.lexeme (j + n)).is s)) j Q := by
  simp [peekIs]

/-- The question for a text is answered by the token sequence alone. -/
@[simp] theorem reads_is {f : ω → Bool → Parser β} :
    L.Reads (fun w => is s >>= f w) j Q ↔ L.Reads (fun w => f w ((L.lexeme j).is s)) j Q :=
  reads_peekIs

@[simp] theorem reads_isNot {f : ω → Bool → Parser β} :
    L.Reads (fun w => isNot s >>= f w) j Q ↔ L.Reads (fun w => f w !(L.lexeme j).is s) j Q := by
  simp [isNot]

@[simp] theorem reads_isOneOf {f : ω → Bool → Parser β} :
    L.Reads (fun w => isOneOf ss >>= f w) j Q ↔
      L.Reads (fun w => f w (ss.any (L.lexeme j).is)) j Q := by
  have h (w : ω) : (L.token w j).is = (L.lexeme j).is := funext (L.token_is w j)
  simp [isOneOf, h]

@[simp] theorem reads_isWord {f : ω → Bool → Parser β} :
    L.Reads (fun w => isWord s >>= f w) j Q ↔
      L.Reads (fun w => f w ((L.lexeme j).isWord s)) j Q := by
  simp [isWord]

@[simp] theorem reads_isIdent {f : ω → Bool → Parser β} :
    L.Reads (fun w => isIdent >>= f w) j Q ↔ L.Reads (fun w => f w (L.lexeme j).isIdent) j Q := by
  simp [isIdent]

@[simp] theorem reads_peekIdent {f : ω → Bool → Parser β} :
    L.Reads (fun w => peekIdent n >>= f w) j Q ↔
      L.Reads (fun w => f w (L.lexeme (j + n)).isIdent) j Q := by
  simp [peekIdent]

@[simp] theorem reads_atEnd {f : ω → Bool → Parser β} :
    L.Reads (fun w => atEnd >>= f w) j Q ↔
      L.Reads (fun w => f w ((L.lexeme j).kind == .eof)) j Q := by
  simp [atEnd]

/-- A span is read from the layout. -/
@[simp] theorem reads_spanFrom {start : ω → Nat} {f : ω → Span → Parser β} :
    L.Reads (fun w => spanFrom (start w) >>= f w) j Q ↔
      L.Reads (fun w => f w ⟨start w, L.behind w j⟩) j Q :=
  reads_bind_of_run Iff.rfl fun _ _ => rfl

@[simp] theorem reads_get {f : ω → Grammar.Cursor → Parser β} :
    L.Reads (fun w => get >>= f w) j Q ↔ L.Reads (fun w => f w (L.cursor w j)) j Q :=
  reads_bind_of_run Iff.rfl fun _ _ => rfl

@[simp] theorem reads_read {f : ω → Input → Parser β} :
    L.Reads (fun w => read >>= f w) j Q ↔ L.Reads (fun w => f w (L.input w)) j Q :=
  reads_bind_of_run Iff.rfl fun _ _ => rfl

@[simp] theorem reads_touchesNext {f : ω → Bool → Parser β} :
    L.Reads (fun w => touchesNext >>= f w) j Q ↔
      L.Reads (fun w => f w ((L.token w j).touches (L.token w (j + 1)))) j Q := by
  simp [touchesNext, Token.touches]

@[simp] theorem reads_nextTouches {f : ω → Bool → Parser β} :
    L.Reads (fun w => nextTouches >>= f w) j Q ↔
      L.Reads (fun w => f w ((L.token w (j + 1)).touches (L.token w (j + 2)))) j Q := by
  simp [nextTouches, Token.touches]

/-- A token before the last one may be consumed. -/
theorem reads_advance {f : ω → Token → Parser β} (h : j < L.size) :
    L.Reads (fun w => advance >>= f w) j Q ↔ L.Reads (fun w => f w (L.token w j)) (j + 1) Q :=
  reads_bind_of_run (by omega) fun _ w => run_advance w h

theorem run_advanceBy (w : ω) (n : Nat) (h : j + n ≤ L.size) :
    advanceBy n (L.input w) (L.cursor w j) = .ok ((), L.cursor w (j + n)) := by
  induction n generalizing j with
  | zero => rfl
  | succ n ih =>
    rw [advanceBy, discard_bind, run_bind, run_advance w (by omega)]
    have := ih (j := j + 1) (by omega)
    rw [Nat.add_assoc, Nat.add_comm 1 n] at this
    exact this

theorem reads_advanceBy {f : ω → Unit → Parser β} (h : j + n ≤ L.size) :
    L.Reads (fun w => advanceBy n >>= f w) j Q ↔ L.Reads (fun w => f w ()) (j + n) Q :=
  reads_bind_of_run (by omega) fun _ w => run_advanceBy w n h

theorem run_fail (w : ω) (cause : SyntaxError.Cause) (j : Nat) :
    (fail cause : Parser α) (L.input w) (L.cursor w j) = .error ⟨L.start w j, cause⟩ := by
  rw [fail, offset, current, run_bind, run_bind, run_peek]
  rfl

/-- A fault is met in all layouts, unless it tells of a reading without end. -/
@[simp] theorem reads_fail {cause : ω → SyntaxError.Cause}
    (h : ∀ w, (cause w).isEndless = false) : L.Reads (fun w => fail (cause w)) j P :=
  reads_of_fault fun hj w => ⟨run_fail w (cause w) j, h w, j, hj, rfl⟩

@[simp] theorem reads_fail_bind {cause : ω → SyntaxError.Cause}
    (h : ∀ w, (cause w).isEndless = false) : L.Reads (fun w => fail (cause w) >>= f w) j Q :=
  (reads_fail (P := fun _ _ => False) h).bind fun _ _ h => h.elim

@[simp] theorem reads_failAt {cause : Token → SyntaxError.Cause}
    (h : ∀ t, (cause t).isEndless = false) : L.Reads (fun _ => failAt cause) j P := by
  simp [failAt, h]

@[simp] theorem reads_failAt_bind {cause : Token → SyntaxError.Cause}
    (h : ∀ t, (cause t).isEndless = false) : L.Reads (fun w => failAt cause >>= f w) j Q :=
  (reads_failAt (P := fun _ _ => False) h).bind fun _ _ h => h.elim

/-! ### Tokens that are consumed if they fit -/

theorem ite_bind (c : Prop) [Decidable c] (p q : Parser α) (g : α → Parser β) :
    (if c then p else q) >>= g = if c then p >>= g else q >>= g := by
  split <;> rfl

theorem acceptIf_bind (cond : Parser Bool) (g : Bool → Parser β) :
    acceptIf cond >>= g =
      cond >>= fun c => if c then advance >>= fun _ => g true else g false := by
  simp [acceptIf, ite_bind, discard_bind]

/-- A token that is consumed only if it stands before the end. -/
theorem reads_ite_advance {c : Prop} [Decidable c] {f : ω → Token → Parser β} {q : ω → Parser β}
    (hc : c → j < L.size) :
    L.Reads (fun w => if c then advance >>= f w else q w) j Q ↔
      (c → L.Reads (fun w => f w (L.token w j)) (j + 1) Q) ∧ (¬c → L.Reads q j Q) := by
  rw [reads_ite]
  exact and_congr_left' (forall_congr' fun h => reads_advance (hc h))

/-- An optional token is consumed in all layouts or in none. -/
@[simp] theorem reads_accept {f : ω → Bool → Parser β} :
    L.Reads (fun w => accept s >>= f w) j Q ↔
      ((L.lexeme j).is s = true → L.Reads (fun w => f w true) (j + 1) Q) ∧
      ((L.lexeme j).is s = false → L.Reads (fun w => f w false) j Q) := by
  simp only [accept, acceptIf_bind, reads_is, reads_ite_advance L.lt_size_of_is, Bool.not_eq_true]

@[simp] theorem reads_acceptWord {f : ω → Bool → Parser β} :
    L.Reads (fun w => acceptWord s >>= f w) j Q ↔
      ((L.lexeme j).isWord s = true → L.Reads (fun w => f w true) (j + 1) Q) ∧
      ((L.lexeme j).isWord s = false → L.Reads (fun w => f w false) j Q) := by
  simp only [acceptWord, acceptIf_bind, reads_isWord, reads_ite_advance L.lt_size_of_isWord,
    Bool.not_eq_true]

/-- A token that has to be there is consumed in all layouts or missed in all of them. -/
@[simp] theorem reads_expect {f : ω → Token → Parser β} :
    L.Reads (fun w => expect s >>= f w) j Q ↔
      ((L.lexeme j).is s = true → L.Reads (fun w => f w (L.token w j)) (j + 1) Q) := by
  simp [expect, ite_bind, reads_ite_advance L.lt_size_of_is]

/-- A name that has to be there is consumed in all layouts or missed in all of them. -/
@[simp] theorem reads_expectIdent {f : ω → Token → Parser β} :
    L.Reads (fun w => expectIdent >>= f w) j Q ↔
      ((L.lexeme j).isIdent = true → L.Reads (fun w => f w (L.token w j)) (j + 1) Q) := by
  simp [expectIdent, ite_bind, reads_ite_advance L.lt_size_of_isIdent]

@[simp] theorem reads_identText {f : ω → String → Parser β} :
    L.Reads (fun w => identText >>= f w) j Q ↔
      ((L.lexeme j).isIdent = true → L.Reads (fun w => f w (L.lexeme j).text) (j + 1) Q) := by
  simp [identText]

@[simp] theorem reads_optionalIdent {f : ω → String → Parser β} :
    L.Reads (fun w => optionalIdent >>= f w) j Q ↔
      ((L.lexeme j).isIdent = true → L.Reads (fun w => f w (L.lexeme j).text) (j + 1) Q) ∧
      ((L.lexeme j).isIdent = false → L.Reads (fun w => f w "") j Q) := by
  simp [optionalIdent, ite_bind, reads_ite_advance L.lt_size_of_isIdent]

theorem lt_size_of_any (h : ss.any (L.lexeme j).is = true) : j < L.size := by
  obtain ⟨s, -, hs⟩ := List.any_eq_true.mp h
  exact L.lt_size_of_is hs

/-- One of some words, if it is there. -/
@[simp] theorem reads_textOf {f : ω → String → Parser β} :
    L.Reads (fun w => textOf ss >>= f w) j Q ↔
      (ss.any (L.lexeme j).is = true → L.Reads (fun w => f w (L.lexeme j).text) (j + 1) Q) ∧
      (ss.any (L.lexeme j).is = false → L.Reads (fun w => f w "") j Q) := by
  simp only [textOf, bind_assoc, ite_bind, pure_bind, reads_isOneOf,
    reads_ite_advance lt_size_of_any, token_text, Bool.not_eq_true]

@[simp] theorem reads_discard {g : ω → Unit → Parser β} :
    L.Reads (fun w => discard (p w) >>= g w) j Q ↔
      L.Reads (fun w => p w >>= fun _ => g w ()) j Q := by
  simp only [discard_bind]

/-! ### Speculation -/

/-- A speculative reading that fails starts again where it began. -/
theorem Reads.attempt (h : L.Reads p j P) :
    L.Reads (fun w => Grammar.attempt (p w)) j (Perhaps P (· = j)) := by
  intro hj
  rcases h hj with ⟨a, k, hk, ha, hrun⟩ | ⟨e, he⟩
  · refine .inl ⟨fun w => some (a w), k, hk, .some ha, fun w => ?_⟩
    simp only [Grammar.attempt, hrun w]
  · refine .inl ⟨fun _ => none, j, hj, .none rfl, fun w => ?_⟩
    simp [Grammar.attempt, he w, (he w).2.isEndless_eq]

/-- A speculative reading of what lies ahead consumes nothing. -/
theorem Reads.lookahead (h : L.Reads p j P) :
    L.Reads (fun w => Grammar.lookahead (p w)) j fun o k =>
      k = j ∧ ∃ l, Perhaps P (fun _ => True) o l := by
  intro hj
  rcases h hj with ⟨a, k, hk, ha, hrun⟩ | ⟨e, he⟩
  · refine .inl ⟨fun w => some (a w), j, hj, ⟨rfl, k, .some ha⟩, fun w => ?_⟩
    simp only [Grammar.lookahead, hrun w]
  · refine .inl ⟨fun _ => none, j, hj, ⟨rfl, j, .none trivial⟩, fun w => ?_⟩
    simp [Grammar.lookahead, he w, (he w).2.isEndless_eq]

/-! ### Loops -/

/-- As many tokens are left in all layouts. -/
theorem reads_tokensLeft {f : ω → Nat → Parser β} :
    L.Reads (fun w => tokensLeft >>= f w) j Q ↔ L.Reads (fun w => f w (L.size - j)) j Q :=
  reads_bind_of_run Iff.rfl fun _ w => run_tokensLeft w j

theorem reads_bound {f : ω → Nat → Parser β} :
    L.Reads (fun w => bound >>= f w) j Q ↔ L.Reads (fun w => f w (L.size - j + 1)) j Q := by
  simp only [bound, bind_assoc, pure_bind, reads_tokensLeft]

/-- Behind a round that consumed a token a loop goes on. -/
theorem reads_nextRound_bind (hjk : j < k) (h : L.Reads (fun w => p w >>= f w) k Q) :
    L.Reads (fun w => nextRound (L.size - j) (p w) >>= f w) k Q := by
  refine .of_le fun hk => ?_
  simp only [nextRound, bind_assoc, ite_bind, reads_tokensLeft, reads_ite]
  exact ⟨fun _ => h, fun hleft => absurd (by omega) hleft⟩

variable {cond : ω → Parser Bool} {item : ω → Parser α} {I : Nat → (ω → α) → Nat → Prop}

/-- The values of a loop are as many in all layouts, and each of them is read between `j` and
`k`. -/
def Gathers (I : Nat → (ω → α) → Nat → Prop) (j : Nat) (as : ω → List α) (k : Nat) : Prop :=
  ∃ xs : List (ω → α), (as = fun w => xs.map fun x => x w) ∧
    ∀ x ∈ xs, ∃ l m, j ≤ l ∧ m ≤ k ∧ I l x m

theorem Gathers.nil : Gathers I j (fun _ => []) k := ⟨[], rfl, by simp⟩

/-- One more round in front of those gathered. -/
theorem Gathers.cons {a : ω → α} {as : ω → List α} {m : Nat} (ha : I j a k)
    (has : Gathers I l as m) (hjl : j ≤ l) (hkm : k ≤ m) :
    Gathers I j (fun w => a w :: as w) m := by
  obtain ⟨xs, rfl, hxs⟩ := has
  refine ⟨a :: xs, rfl, fun x hx => ?_⟩
  rcases List.mem_cons.mp hx with rfl | hx
  · exact ⟨j, k, Nat.le_refl j, hkm, ha⟩
  · obtain ⟨l', m', hl, hm, h⟩ := hxs x hx
    exact ⟨l', m', Nat.le_trans hjl hl, hm, h⟩

theorem Gathers.mono {as : ω → List α} {m : Nat} (h : Gathers I k as l) (hjk : j ≤ k)
    (hlm : l ≤ m) : Gathers I j as m := by
  obtain ⟨xs, rfl, hxs⟩ := h
  refine ⟨xs, rfl, fun x hx => ?_⟩
  obtain ⟨k', l', hk, hl, h⟩ := hxs x hx
  exact ⟨k', l', Nat.le_trans hjk hk, Nat.le_trans hl hlm, h⟩

/-- The first round of a loop, and the rounds behind it. -/
theorem repeatFuel_succ (cond : Parser Bool) (item : Parser α) (fuel : Nat) :
    repeatFuel cond item (fuel + 1) = tokensLeft >>= fun left =>
      optionalPart cond item >>= fun
        | some a => nextRound left (repeatFuel cond item fuel) >>= fun as => Pure.pure (a :: as)
        | none => Pure.pure [] := by
  simp [repeatFuel, optionalPart, ite_bind]

/-- A loop whose rounds consume tokens ends before its fuel does. -/
theorem Reads.repeatFuel {fuel : Nat} (hfuel : L.size - j < fuel)
    (hround : ∀ k, j ≤ k → L.Reads (fun w => optionalPart (cond w) (item w)) k
      (Perhaps (fun a l => k < l ∧ I k a l) (k ≤ ·))) :
    L.Reads (fun w => Grammar.repeatFuel (cond w) (item w) fuel) j fun as k =>
      j ≤ k ∧ Gathers I j as k := by
  induction fuel generalizing j with
  | zero => omega
  | succ fuel ih =>
    simp only [repeatFuel_succ, reads_tokensLeft]
    refine (hround j (Nat.le_refl j)).bindPerhaps (fun k hk => ?_) fun a k hread => ?_
    · exact .pure fun _ => ⟨hk, .nil⟩
    · obtain ⟨hjk, ha⟩ := hread
      refine reads_nextRound_bind hjk (.of_le fun hk => ?_)
      refine (ih (by omega) fun l hl => hround l (by omega)).bind fun as l hread => ?_
      obtain ⟨hkl, has⟩ := hread
      exact .pure fun _ => ⟨by omega, .cons ha has (by omega) hkl⟩

/-- A loop whose rounds consume tokens has as many rounds in all layouts. -/
theorem Reads.repeatWhile
    (hround : ∀ k, j ≤ k → L.Reads (fun w => optionalPart (cond w) (item w)) k
      (Perhaps (fun a l => k < l ∧ I k a l) (k ≤ ·))) :
    L.Reads (fun w => Grammar.repeatWhile (cond w) (item w)) j fun as k =>
      j ≤ k ∧ Gathers I j as k := by
  simp only [Grammar.repeatWhile, reads_bound]
  exact .repeatFuel (by omega) hround

theorem Reads.moreItems
    (hitem : ∀ k, j < k → L.Reads item k fun a l => k ≤ l ∧ I k a l) :
    L.Reads (fun w => Grammar.moreItems (item w)) j fun as k => j ≤ k ∧ Gathers I j as k := by
  refine (Reads.repeatWhile (I := fun _ a l => ∃ k, j ≤ k ∧ I k a l) fun k hk => ?_).imp ?_
  · simp only [optionalPart, reads_accept]
    refine ⟨fun _ => ?_, fun _ => .pure fun _ => .none (Nat.le_refl k)⟩
    refine (hitem (k + 1) (by omega)).bind fun a l hread => ?_
    exact .pure fun _ => .some ⟨by omega, k + 1, by omega, hread.2⟩
  · rintro as k - ⟨hjk, xs, rfl, hxs⟩
    refine ⟨hjk, xs, rfl, fun x hx => ?_⟩
    obtain ⟨-, m, -, hm, l, hl, h⟩ := hxs x hx
    exact ⟨l, m, hl, hm, h⟩

/-- A list with commas has as many items in all layouts. -/
theorem Reads.separated
    (hitem : ∀ k, j ≤ k → L.Reads item k fun a l => k + n ≤ l ∧ I k a l) :
    L.Reads (fun w => Grammar.separated (item w)) j fun as k =>
      j + n ≤ k ∧ Gathers I j as k := by
  refine (hitem j (Nat.le_refl j)).bind fun a k hread => ?_
  obtain ⟨hjk, ha⟩ := hread
  refine (Reads.moreItems (I := I) fun l hl => (hitem l (by omega)).imp ?_).bind ?_
  · rintro b m - ⟨hm, hb⟩
    exact ⟨by omega, hb⟩
  · rintro as l ⟨hkl, has⟩
    exact .pure fun _ => ⟨by omega, .cons ha has (by omega) hkl⟩

theorem Reads.listUntilFuel {closing : String} {fuel : Nat} (hfuel : L.size - j < fuel)
    (hitem : ∀ k, j ≤ k → L.Reads item k fun a l => k < l ∧ I k a l) :
    L.Reads (fun w => Grammar.listUntilFuel closing (item w) fuel) j fun as k =>
      j ≤ k ∧ Gathers I j as k := by
  induction fuel generalizing j with
  | zero => omega
  | succ fuel ih =>
    simp only [Grammar.listUntilFuel, reads_tokensLeft, reads_is, reads_ite]
    refine ⟨fun _ => .pure fun _ => ⟨Nat.le_refl j, .nil⟩, fun _ => ?_⟩
    refine (hitem j (Nat.le_refl j)).bind fun a k hread => ?_
    obtain ⟨hjk, ha⟩ := hread
    simp only [reads_accept, Bool.false_eq_true, if_true, if_false]
    refine ⟨fun _ => ?_, fun _ => ?_⟩
    · refine reads_nextRound_bind (by omega) (.of_le fun hk => ?_)
      refine (ih (by omega) fun l hl => hitem l (by omega)).bind fun as l hread => ?_
      obtain ⟨hkl, has⟩ := hread
      exact .pure fun _ => ⟨by omega, .cons ha has (by omega) (by omega)⟩
    · exact .pure fun _ => ⟨by omega, .cons ha .nil (Nat.le_refl j) (Nat.le_refl k)⟩

/-- A list up to a closing token has as many items in all layouts. -/
theorem Reads.listUntil {closing : String}
    (hitem : ∀ k, j ≤ k → L.Reads item k fun a l => k < l ∧ I k a l) :
    L.Reads (fun w => Grammar.listUntil closing (item w)) j fun as k =>
      j ≤ k ∧ Gathers I j as k := by
  simp only [Grammar.listUntil, reads_bound]
  exact .listUntilFuel (by omega) hitem

/-- A list in brackets has as many items in all layouts. -/
theorem Reads.enclosed {opening closing : String}
    (hitem : ∀ k, j < k → L.Reads item k fun a l => k < l ∧ I k a l) :
    L.Reads (fun w => Grammar.enclosed opening closing (item w)) j fun as k =>
      j < k ∧ Gathers I j as k := by
  simp only [Grammar.enclosed, reads_discard, reads_expect]
  refine fun _ => (Reads.listUntil (I := I) fun k hk => hitem k hk).bind fun as k hread => ?_
  obtain ⟨hk, has⟩ := hread
  simp only [reads_discard, reads_expect]
  exact fun _ => .pure fun _ => ⟨by omega, has.mono (by omega) (by omega)⟩

variable {step : ω → α → Parser (Option α)} {a : ω → α}

/-- A loop whose steps consume tokens ends before its fuel does. -/
theorem Reads.extendFuel {fuel : Nat} (hfuel : L.size - j < fuel)
    (hstep : ∀ a k, j ≤ k → P a k →
      L.Reads (fun w => step w (a w)) k (Perhaps (fun b l => k < l ∧ P b l) (· = k)))
    (ha : P a j) :
    L.Reads (fun w => Grammar.extendFuel (step w) fuel (a w)) j fun b k => j ≤ k ∧ P b k := by
  induction fuel generalizing j a with
  | zero => omega
  | succ fuel ih =>
    simp only [Grammar.extendFuel, reads_tokensLeft]
    refine (hstep a j (Nat.le_refl j) ha).bindPerhaps (fun k hk => ?_) fun b k hread => ?_
    · exact .pure fun _ => ⟨by omega, hk ▸ ha⟩
    · obtain ⟨hjk, hb⟩ := hread
      rw [reads_iff_bind_pure]
      refine reads_nextRound_bind hjk (.of_le fun hk => ?_)
      rw [← reads_iff_bind_pure]
      refine (ih (by omega) (fun c l hl => hstep c l (by omega)) hb).imp fun c l _ hc => ?_
      exact ⟨by omega, hc.2⟩

/-- What holds of the value that a loop extends, and is kept by each of its steps, holds at its
end. -/
theorem Reads.extend
    (hstep : ∀ a k, j ≤ k → P a k →
      L.Reads (fun w => step w (a w)) k (Perhaps (fun b l => k < l ∧ P b l) (· = k)))
    (ha : P a j) :
    L.Reads (fun w => Grammar.extend (step w) (a w)) j fun b k => j ≤ k ∧ P b k := by
  simp only [Grammar.extend, reads_bound]
  exact .extendFuel (by omega) hstep ha

/-- A part that must not be missing at the end of the text. -/
theorem Reads.unlessEnd {cause : SyntaxError.Cause} (hcause : cause.isEndless = false)
    (h : (L.lexeme j).kind ≠ .eof → L.Reads p j P) :
    L.Reads (fun w => Grammar.unlessEnd cause (p w)) j P := by
  simp only [Grammar.unlessEnd, reads_atEnd, reads_ite, beq_iff_eq]
  exact ⟨fun _ => reads_fail fun _ => hcause, h⟩

/-- The brackets left open are closed at the same index in all layouts, if at all. -/
theorem Reads.skipOpen {opening closing : String} {fuel depth : Nat}
    (hfuel : L.size - j + 1 < fuel) :
    L.Reads (fun _ => Grammar.skipOpen opening closing fuel depth) j fun _ k => j ≤ k := by
  -- on the fuel, which is more than there are tokens left
  induction fuel generalizing j depth with
  | zero => omega
  | succ fuel ih =>
    cases depth with
    | zero => exact .pure fun _ => Nat.le_refl j
    | succ depth =>
      simp only [Grammar.skipOpen, reads_tokensLeft]
      refine (Reads.unlessEnd rfl fun hkind => ?_ :
        L.Reads _ j fun t k => k = j + 1 ∧ t = fun w => L.token w j).bind ?_
      · rw [reads_iff_bind_pure, reads_advance (L.lt_size_of_kind hkind)]
        exact .pure fun _ => ⟨rfl, rfl⟩
      · rintro t k ⟨rfl, rfl⟩
        have hopen (w : ω) : openBehind opening closing depth (L.token w j) =
            openBehind opening closing depth (L.lexeme j) := by simp [openBehind]
        simp only [hopen]
        rw [reads_iff_bind_pure]
        refine reads_nextRound_bind (by omega) (.of_le fun hk => ?_)
        rw [← reads_iff_bind_pure]
        exact (ih (by omega)).imp fun _ _ _ _ => by omega

/-- A bracketed group is consumed with its brackets. -/
theorem Reads.skipBalanced {opening closing : String} :
    L.Reads (fun _ => Grammar.skipBalanced opening closing) j fun _ k => j < k := by
  simp only [Grammar.skipBalanced, reads_discard, reads_expect, reads_bound]
  exact fun _ => (Reads.skipOpen (by omega)).imp fun _ _ _ _ => by omega

end Layouts

end CSharpAudit
