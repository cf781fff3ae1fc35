import CSharpAudit.Proofs.Reading

/-!
# Running a parser on given tokens

What a parser does at a cursor whose next tokens are known is a computation. The lemmas here carry
it out one step at a time: a look at tokens turns into its answer, a token that is consumed leaves
the cursor behind it.

## Main definitions

* `Token.IsPunct` — whether a token is a given punctuator
* `Grammar.ahead` — a token among those left
* `Grammar.Returns` — what holds of all values that a parser yields

## Main results

* `Grammar.run_bind_of_ok` — a parser goes on where the one before it stopped
* `Grammar.run_expect_bind`, `Grammar.run_accept_bind` — tokens that are consumed if they fit
* `Grammar.run_attempt_of_error` — a speculative reading that fails
* `Grammar.run_extend_some`, `Grammar.run_extend_none` — one round of a loop
-/

namespace CSharpAudit

/-- Whether a token is the given punctuator. -/
structure Token.IsPunct (t : Token) (s : String) : Prop where
  kind : t.kind = .punct
  text : t.text = s

/-- A punctuator has its own text and no other. -/
theorem Token.IsPunct.is_eq {t : Token} {s : String} (h : t.IsPunct s) (s' : String) :
    t.is s' = (s == s') := by
  simp [Token.is, h.kind, h.text]

/-- A token has at most one text. -/
theorem Token.is_eq_of_is {t : Token} {s : String} (h : t.is s = true) (s' : String) :
    t.is s' = (s == s') := by
  rw [Token.is, Bool.and_eq_true, beq_iff_eq] at h
  rw [Token.is, h.1, h.2, Bool.true_and]

/-- A name is neither a keyword nor a punctuator. -/
theorem Token.is_eq_false_of_isIdent {t : Token} (h : t.isIdent = true) (s : String) :
    t.is s = false := by
  rw [Token.isIdent, beq_iff_eq] at h
  simp [Token.is, h]

namespace Grammar

/-- The token that lies `n` places behind the first one of those left. -/
def ahead (x : Input) (rest : List Token) (n : Nat) : Token := (rest[n]?).getD x.eof

variable {α β : Type} {p : Parser α} {f : α → Parser β} {x : Input} {c c' : Cursor} {a : α}
  {e : SyntaxError} {t : Token} {ts : List Token} {stop n : Nat} {s : String}

@[simp] theorem ahead_zero : ahead x (t :: ts) 0 = t := rfl

@[simp] theorem ahead_succ : ahead x (t :: ts) (n + 1) = ahead x ts n := rfl

/-! ### One parser behind another -/

/-- Two parsers with the same outcome go on in the same way. -/
theorem run_bind_congr {q : Parser α} (h : p x c = q x c') : (p >>= f) x c = (q >>= f) x c' := by
  rw [Layouts.run_bind, Layouts.run_bind, h]

/-- A parser goes on where the one before it stopped. -/
theorem run_bind_of_ok (h : p x c = .ok (a, c')) : (p >>= f) x c = f a x c' := by
  rw [Layouts.run_bind, h]
  rfl

/-- A fault stops the parser behind. -/
theorem run_bind_of_error (h : p x c = .error e) : (p >>= f) x c = .error e := by
  rw [Layouts.run_bind, h]
  rfl

/-- What a success of two parsers in a row consists of. -/
theorem run_bind_eq_ok {b : β} :
    (p >>= f) x c = .ok (b, c') ↔ ∃ a c₁, p x c = .ok (a, c₁) ∧ f a x c₁ = .ok (b, c') := by
  rw [Layouts.run_bind]
  match p x c with
  | .error e => simp [bind, Except.bind]
  | .ok (a, c₁) => exact ⟨fun h => ⟨a, c₁, rfl, h⟩, fun ⟨_, _, hrun, h⟩ => by cases hrun; exact h⟩

@[simp] theorem run_pure : (pure a : Parser α) x c = .ok (a, c) := rfl

@[simp] theorem run_ite {q : Parser α} {b : Prop} [Decidable b] :
    (if b then p else q) x c = if b then p x c else q x c := by
  split <;> rfl

@[simp] theorem run_ite_bind {q : Parser α} {b : Prop} [Decidable b] :
    ((if b then p else q) >>= f) x c = if b then (p >>= f) x c else (q >>= f) x c := by
  split <;> rfl

@[simp] theorem run_discard_bind {g : Unit → Parser β} :
    (discard p >>= g) x c = (p >>= fun _ => g ()) x c := by
  rw [Layouts.discard_bind]

/-! ### Looks at the tokens ahead -/

/-- A look at a token yields the token that many places ahead. -/
@[simp] theorem run_peek_bind {f : Token → Parser β} :
    (peek n >>= f) x c = f (ahead x c.rest n) x c := rfl

@[simp] theorem run_current_bind {f : Token → Parser β} :
    (current >>= f) x c = f (ahead x c.rest 0) x c := rfl

@[simp] theorem run_offset_bind {f : Nat → Parser β} :
    (offset >>= f) x c = f (ahead x c.rest 0).span.start x c := rfl

@[simp] theorem run_peekIs_bind {f : Bool → Parser β} :
    (peekIs n s >>= f) x c = f ((ahead x c.rest n).is s) x c := rfl

/-- Whether the current token has a text. -/
@[simp] theorem run_is_bind {f : Bool → Parser β} :
    (is s >>= f) x c = f ((ahead x c.rest 0).is s) x c := rfl

@[simp] theorem run_isOneOf_bind {f : Bool → Parser β} {ss : List String} :
    (isOneOf ss >>= f) x c = f (ss.any (ahead x c.rest 0).is) x c := rfl

@[simp] theorem run_isWord_bind {f : Bool → Parser β} :
    (isWord s >>= f) x c = f ((ahead x c.rest 0).isWord s) x c := rfl

@[simp] theorem run_isIdent_bind {f : Bool → Parser β} :
    (isIdent >>= f) x c = f (ahead x c.rest 0).isIdent x c := rfl

@[simp] theorem run_peekIdent_bind {f : Bool → Parser β} :
    (peekIdent n >>= f) x c = f (ahead x c.rest n).isIdent x c := rfl

@[simp] theorem run_touchesNext_bind {f : Bool → Parser β} :
    (touchesNext >>= f) x c =
      f ((ahead x c.rest 0).span.stop == (ahead x c.rest 1).span.start) x c := rfl

@[simp] theorem run_nextTouches_bind {f : Bool → Parser β} :
    (nextTouches >>= f) x c =
      f ((ahead x c.rest 1).span.stop == (ahead x c.rest 2).span.start) x c := rfl

@[simp] theorem run_spanFrom_bind {start : Nat} {f : Span → Parser β} :
    (spanFrom start >>= f) x c = f ⟨start, c.lastEnd⟩ x c := rfl

@[simp] theorem run_get_bind {f : Cursor → Parser β} : (get >>= f) x c = f c x c := rfl

@[simp] theorem run_tokensLeft_bind {f : Nat → Parser β} :
    (tokensLeft >>= f) x c = f c.rest.length x c := rfl

@[simp] theorem run_bound_bind {f : Nat → Parser β} :
    (bound >>= f) x c = f (c.rest.length + 1) x c := rfl

/-! ### Tokens that are consumed -/

/-- The current token is consumed. -/
@[simp] theorem run_advance_bind {f : Token → Parser β} :
    (advance >>= f) x ⟨t :: ts, stop⟩ = f t x ⟨ts, t.span.stop⟩ := rfl

/-- Several tokens are consumed. -/
theorem run_advanceBy (os us : List Token) (stop : Nat) :
    ∃ stop', advanceBy os.length x ⟨os ++ us, stop⟩ = .ok ((), ⟨us, stop'⟩) := by
  induction os generalizing stop with
  | nil => exact ⟨stop, rfl⟩
  | cons o os ih =>
    obtain ⟨stop', h⟩ := ih o.span.stop
    refine ⟨stop', ?_⟩
    simpa [advanceBy] using h

/-- A fault tells of the start of the current token. -/
@[simp] theorem run_fail {cause : SyntaxError.Cause} :
    (fail cause : Parser α) x c = .error ⟨(ahead x c.rest 0).span.start, cause⟩ := rfl

@[simp] theorem run_failAt {cause : Token → SyntaxError.Cause} :
    (failAt cause : Parser α) x c =
      .error ⟨(ahead x c.rest 0).span.start, cause (ahead x c.rest 0)⟩ := rfl

@[simp] theorem run_fail_bind {cause : SyntaxError.Cause} :
    (fail cause >>= f) x c = .error ⟨(ahead x c.rest 0).span.start, cause⟩ := rfl

@[simp] theorem run_failAt_bind {cause : Token → SyntaxError.Cause} :
    (failAt cause >>= f) x c =
      .error ⟨(ahead x c.rest 0).span.start, cause (ahead x c.rest 0)⟩ := rfl

/-- A token is consumed if it has a text. -/
theorem run_accept_bind {f : Bool → Parser β} :
    (accept s >>= f) x ⟨t :: ts, stop⟩ =
      if t.is s then f true x ⟨ts, t.span.stop⟩ else f false x ⟨t :: ts, stop⟩ := by
  rw [accept, Layouts.acceptIf_bind, run_is_bind, run_ite]
  rfl

theorem run_acceptWord_bind {f : Bool → Parser β} :
    (acceptWord s >>= f) x ⟨t :: ts, stop⟩ =
      if t.isWord s then f true x ⟨ts, t.span.stop⟩ else f false x ⟨t :: ts, stop⟩ := by
  rw [acceptWord, Layouts.acceptIf_bind, run_isWord_bind, run_ite]
  rfl

/-- A token is consumed if it has a text. Otherwise it is a fault. -/
theorem run_expect_bind {f : Token → Parser β} :
    (expect s >>= f) x ⟨t :: ts, stop⟩ =
      if t.is s then f t x ⟨ts, t.span.stop⟩
      else .error ⟨t.span.start, .expected s t⟩ := by
  rw [expect, bind_assoc, run_is_bind, Layouts.ite_bind, run_ite]
  rfl

/-! ### Speculation -/

/-- A speculative reading that succeeds is kept. -/
theorem run_attempt_of_ok (h : p x c = .ok (a, c')) : attempt p x c = .ok (some a, c') := by
  simp only [attempt, h]

/-- A speculative reading either succeeds or leaves the cursor where it was. -/
theorem run_attempt_eq_ok {o : Option α} (h : attempt p x c = .ok (o, c')) :
    (∃ a, o = some a ∧ p x c = .ok (a, c')) ∨ o = none ∧ c' = c := by
  rw [attempt] at h
  cases hp : p x c with
  | error e =>
    rw [hp] at h
    dsimp only at h
    split at h
    · cases h
    · cases h
      exact .inr ⟨rfl, rfl⟩
  | ok r =>
    rw [hp] at h
    cases h
    exact .inl ⟨r.1, rfl, rfl⟩

/-- A speculative reading that fails leaves the cursor where it was. -/
theorem run_attempt_of_error (h : p x c = .error e) (he : e.cause.isEndless = false) :
    attempt p x c = .ok (none, c) := by
  simp [attempt, h, he]

/-- A look ahead yields what it reads, and the cursor stays. -/
theorem run_lookahead_of_ok (h : p x c = .ok (a, c')) : lookahead p x c = .ok (some a, c) := by
  simp only [lookahead, h]

theorem run_lookahead_of_error (h : p x c = .error e) (he : e.cause.isEndless = false) :
    lookahead p x c = .ok (none, c) := by
  simp [lookahead, h, he]

/-! ### Casts -/

/-- Without a parenthesis there is no cast. -/
theorem run_castType?_none {self : Rules} (ht : t.is "(" = false) :
    castType? self x ⟨t :: ts, stop⟩ = .ok (none, ⟨t :: ts, stop⟩) := by
  refine run_attempt_of_error (e := ⟨t.span.start, .expected "(" t⟩) ?_ rfl
  simp [run_expect_bind, ht]

theorem run_cast?_none {self : Rules} (h : castType? self x c = .ok (none, c)) :
    cast? self x c = .ok (none, c) := by
  simp [cast?, run_bind_of_ok h]

/-! ### Loops -/

/-- A further round is read only if the one before it has consumed a token. -/
theorem run_nextRound {left : Nat} :
    nextRound left p x c =
      if c.rest.length < left then p x c
      else .error ⟨(ahead x c.rest 0).span.start, .stalled⟩ := by
  rw [nextRound, run_tokensLeft_bind, run_ite]
  rfl

variable {step : α → Parser (Option α)} {fuel fuel' : Nat} {b : α}

theorem run_extendFuel_error (h : step a x c = .error e) :
    extendFuel step (fuel + 1) a x c = .error e := by
  rw [extendFuel, run_tokensLeft_bind, run_bind_of_error h]

theorem run_extendFuel_some (h : step a x c = .ok (some b, c')) :
    extendFuel step (fuel + 1) a x c =
      nextRound c.rest.length (extendFuel step fuel b) x c' := by
  rw [extendFuel, run_tokensLeft_bind, run_bind_of_ok h]

theorem run_extendFuel_none (h : step a x c = .ok (none, c')) :
    extendFuel step (fuel + 1) a x c = .ok (a, c') := by
  rw [extendFuel, run_tokensLeft_bind, run_bind_of_ok h]
  rfl

/-- More rounds than there are tokens left are never needed. -/
theorem extendFuel_eq (h : c.rest.length < fuel) (h' : c.rest.length < fuel') :
    extendFuel step fuel a x c = extendFuel step fuel' a x c := by
  induction fuel generalizing fuel' a c with
  | zero => exact absurd h (Nat.not_lt_zero _)
  | succ fuel ih =>
    obtain ⟨fuel', rfl⟩ : ∃ n, fuel' = n + 1 := Nat.exists_eq_succ_of_ne_zero (by omega)
    match hstep : step a x c with
    | .error e => rw [run_extendFuel_error hstep, run_extendFuel_error hstep]
    | .ok (none, c') => rw [run_extendFuel_none hstep, run_extendFuel_none hstep]
    | .ok (some b, c') =>
      rw [run_extendFuel_some hstep, run_extendFuel_some hstep]
      rw [run_nextRound, run_nextRound]
      by_cases hleft : c'.rest.length < c.rest.length
      · rw [if_pos hleft, if_pos hleft]
        exact ih (by omega) (by omega)
      · rw [if_neg hleft, if_neg hleft]

/-- The first round of a loop. -/
theorem run_extend_first (h : extend step a x c = .ok (b, c')) :
    step a x c = .ok (none, c') ∧ b = a ∨
      ∃ a₁ c₁, step a x c = .ok (some a₁, c₁) ∧ extend step a₁ x c₁ = .ok (b, c') := by
  change extendFuel step (c.rest.length + 1) a x c = .ok (b, c') at h
  match hstep : step a x c with
  | .error e => rw [run_extendFuel_error hstep] at h; cases h
  | .ok (none, c₁) =>
    rw [run_extendFuel_none hstep] at h
    cases h
    exact .inl ⟨rfl, rfl⟩
  | .ok (some a₁, c₁) =>
    rw [run_extendFuel_some hstep, run_nextRound] at h
    split at h
    · refine .inr ⟨a₁, c₁, rfl, ?_⟩
      rw [← h]
      exact extendFuel_eq (by omega) (by omega)
    · cases h

/-- What holds of a value and is kept by each round of a loop holds of its result. -/
theorem run_extend_rec {P : α → Cursor → Prop} (hrun : extend step a x c = .ok (b, c'))
    (hstart : P a c)
    (hsome : ∀ a c b c', P a c → step a x c = .ok (some b, c') → P b c')
    (hnone : ∀ a c c', P a c → step a x c = .ok (none, c') → P a c') : P b c' := by
  change extendFuel step (c.rest.length + 1) a x c = .ok (b, c') at hrun
  generalize c.rest.length + 1 = fuel at hrun
  induction fuel generalizing a c with
  | zero => cases hrun
  | succ fuel ih =>
    match hstep : step a x c with
    | .error e => rw [run_extendFuel_error hstep] at hrun; cases hrun
    | .ok (none, c₁) =>
      rw [run_extendFuel_none hstep] at hrun
      cases hrun
      exact hnone _ _ _ hstart hstep
    | .ok (some a₁, c₁) =>
      rw [run_extendFuel_some hstep, run_nextRound] at hrun
      split at hrun
      · exact ih (hsome a c a₁ c₁ hstart hstep) hrun
      · cases hrun

/-- One round of a loop that consumes a token. -/
theorem run_extend_some (h : step a x c = .ok (some b, c'))
    (hlength : c'.rest.length < c.rest.length) :
    extend step a x c = extend step b x c' := by
  show extendFuel step (c.rest.length + 1) a x c = extendFuel step (c'.rest.length + 1) b x c'
  rw [run_extendFuel_some h, run_nextRound, if_pos hlength]
  exact extendFuel_eq (by omega) (by omega)

/-- The last round of a loop. -/
theorem run_extend_none (h : step a x c = .ok (none, c')) : extend step a x c = .ok (a, c') :=
  run_extendFuel_none h

/-! ### What a parser returns -/

section Returns

variable {P : α → Prop} {Q : β → Prop} {test : Parser Bool} {cause : SyntaxError.Cause}

/-- All values that a parser yields have a property. -/
def Returns (p : Parser α) (P : α → Prop) : Prop := ∀ x c r, p x c = .ok r → P r.1

theorem Returns.pure (h : P a) : Returns (Pure.pure a) P := by
  intro x c r hr
  obtain rfl := Except.ok.inj hr
  exact h

/-- What the first parser yields is known to the second one. -/
theorem Returns.then (hp : Returns p P) (hf : ∀ a, P a → Returns (f a) Q) :
    Returns (p >>= f) Q := by
  intro x c r hr
  rw [Layouts.run_bind] at hr
  cases hrun : p x c with
  | error e =>
    rw [hrun] at hr
    cases hr
  | ok b =>
    rw [hrun] at hr
    exact hf b.1 (hp x c b hrun) x b.2 r hr

/-- What the first parser yields may be forgotten. -/
theorem Returns.bind (h : ∀ a, Returns (f a) Q) : Returns (p >>= f) Q :=
  .then (P := fun _ => True) (fun _ _ _ _ => trivial) fun a _ => h a

/-- A choice yields what both sides yield. -/
theorem Returns.ite {c : Prop} [Decidable c] (hp : Returns p P) (hq : Returns q P) :
    Returns (if c then p else q) P := by
  split
  · exact hp
  · exact hq

/-- A parser that looks at a token and goes on in one way or the other. -/
theorem Returns.branch {test : Parser β} {c : β → Prop} [∀ b, Decidable (c b)] {p q : Parser α}
    (hp : Returns p P) (hq : Returns q P) :
    Returns (test >>= fun b => if c b then p else q) P :=
  .bind fun _ => .ite hp hq

/-- A parser that fails yields nothing. -/
theorem Returns.fail : Returns (fail cause) P := by
  intro x c r hr
  cases hr

theorem Returns.failAt {cause : Token → SyntaxError.Cause} : Returns (failAt cause) P :=
  .bind fun _ => .fail

/-- A parser that goes on unless a condition makes it stop. -/
theorem Returns.unlessStopped {c : Prop} [Decidable c] {stop : Parser Unit}
    {rest : Unit → Parser α} (h : Returns (rest ()) P) :
    Returns (if c then stop >>= rest else rest ()) P :=
  .ite (.bind fun _ => h) h

theorem Returns.nextRound {left : Nat} (h : Returns p P) : Returns (nextRound left p) P :=
  .branch h .fail

/-- An optional part yields what its parser yields, if anything. -/
theorem Returns.optionalPart (h : Returns p P) :
    Returns (optionalPart test p) fun o => ∀ a, o = some a → P a := by
  refine .branch (h.then fun a ha => .pure ?_) (.pure ?_)
  · exact fun b hb => Option.some.inj hb ▸ ha
  · exact fun b hb => absurd hb.symm (Option.some_ne_none b)

theorem Returns.extendFuel {step : α → Parser (Option α)}
    (h : ∀ a, P a → Returns (step a) fun o => ∀ b, o = some b → P b) (fuel : Nat) {a : α}
    (ha : P a) : Returns (extendFuel step fuel a) P := by
  induction fuel generalizing a with
  | zero => exact .fail
  | succ fuel ih =>
    refine .bind fun left => (h a ha).then fun o ho => ?_
    cases o with
    | none => exact .pure ha
    | some b => exact .nextRound (ih (ho b rfl))

/-- What holds of a value and is kept by each step of its extension holds of the extended value. -/
theorem Returns.extend {step : α → Parser (Option α)} {a : α}
    (h : ∀ a, P a → Returns (step a) fun o => ∀ b, o = some b → P b) (ha : P a) :
    Returns (extend step a) P :=
  .bind fun _ => .extendFuel h _ ha

end Returns

end Grammar

end CSharpAudit
