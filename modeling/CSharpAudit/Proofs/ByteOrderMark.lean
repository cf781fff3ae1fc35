import CSharpAudit.Proofs.Relexing

/-!
# Texts behind a byte-order mark

A byte-order mark in front of a text moves all that the lexer finds by three bytes. Besides the
offsets there is one thing that the lexer knows of the text before a piece: whether the line is
fresh. It is not behind the mark, although nothing but the mark precedes on the line. This tells the
two readings apart where the text opens with a preprocessor line, and nowhere else: the number sign
of that line is then refused.

## Main definitions

* `Token.shift`, `Lexer.shiftReading` — what is read of a text that stands further on
* `Lexer.opensWithDirective` — whether the first line of a text is a preprocessor line
* `Lexer.MarkTransparent` — whether a text is read behind the mark as it is without it

## Main results

* `Lexer.run_shift` — the offset of a text does not change how it is read
* `Lexer.run_stale`, `Lexer.run_stale_directive` — what a line that is not fresh changes
* `Lexer.markTransparent_iff` — which texts are read behind the mark as they are without it
-/

namespace CSharpAudit

/-- The span of a text that stands `n` bytes further on. -/
def Span.shift (n : Nat) (s : Span) : Span := ⟨s.start + n, s.stop + n⟩

/-- The token of a text that stands `n` bytes further on. -/
def Token.shift (n : Nat) (t : Token) : Token := { t with span := t.span.shift n }

namespace Lexer

variable {bs rest source : List UInt8} {b : UInt8} {fresh fresh' : Bool} {n : Nat}

/-! ### Texts that stand further on -/

/-- What is read of a text that stands `n` bytes further on. -/
def shiftReading (n : Nat) :
    Except SyntaxError (List Token × Bool) → Except SyntaxError (List Token × Bool)
  | .ok (tokens, nullable) => .ok (tokens.map (Token.shift n), nullable)
  | .error e => .error { e with offset := e.offset + n }

/-- The state before a text that stands `n` bytes further on. -/
def State.shift (n : Nat) (s : State) : State := { s with offset := s.offset + n }

theorem State.advance_shift (s : State) (p : Piece) :
    (s.shift n).advance p bs = (s.advance p bs).shift n := by
  simp only [advance, shift, Nat.add_right_comm]

theorem State.token?_shift (s : State) (p : Piece) :
    (s.shift n).token? p bs = (s.token? p bs).map (Token.shift n) := by
  cases p with
  | token kind lead more =>
    simp only [token?, Option.map_some, Token.shift, Span.shift, shift, State.doc,
      Nat.add_right_comm]
  | _ => rfl

/-- The offset of a text does not change how it is read. -/
theorem run_shift (n : Nat) (s : State) (bs : List UInt8) :
    run (s.shift n) bs = shiftReading n (run s bs) := by
  -- which piece comes next depends on the line and the bytes, not on the offset
  fun_induction run s bs with
  | case1 s => rw [run]; rfl
  | case2 s b rest f hpiece =>
    have hpiece' : piece (s.shift n).fresh b rest = .error f := hpiece
    have hoffset : ((s.shift n).offset + f.distance : Int) = s.offset + f.distance + n := by
      simp only [State.shift]
      omega
    rw [run, hpiece']
    exact congrArg (fun offset => Except.error (SyntaxError.mk offset f.cause)) hoffset
  | case3 s b rest p hpiece bs ih =>
    have hpiece' : piece (s.shift n).fresh b rest = .ok p := hpiece
    rw [run, hpiece']
    simp only [State.advance_shift, State.token?_shift]
    rw [ih]
    cases run (s.advance p bs) (rest.drop p.more) with
    | error e => rfl
    | ok r =>
      cases s.token? p bs <;> simp [shiftReading, bind, Except.bind, pure, Except.pure]

/-! ### Lines that are not fresh -/

/-- Whether a byte leaves a line fresh. -/
def isIndent (b : UInt8) : Bool := b == ascii ' ' || b == ascii '\t' || b == ascii '\r'

/-- Whether the first line of a text is a preprocessor line. -/
def opensWithDirective (bs : List UInt8) : Bool :=
  (bs.dropWhile isIndent).head? == some (ascii '#')

theorem freshAfter_eq (fresh : Bool) (b : UInt8) :
    freshAfter fresh b = (b == newline || fresh && isIndent b) := by
  unfold freshAfter isIndent
  split <;> simp_all

theorem isIndent_iff : isIndent b = true ↔ b = ascii ' ' ∨ b = ascii '\t' ∨ b = ascii '\r' := by
  simp only [isIndent, Bool.or_eq_true, beq_iff_eq, or_assoc]

theorem freshAfter_of_isIndent (h : isIndent b = true) : freshAfter fresh b = fresh := by
  rcases isIndent_iff.mp h with rfl | rfl | rfl <;> cases fresh <;> rfl

theorem freshAfter_of_not_isIndent (h : isIndent b = false) (fresh fresh' : Bool) :
    freshAfter fresh b = freshAfter fresh' b := by
  simp only [freshAfter_eq, h, Bool.and_false]

theorem piece_of_isIndent (h : isIndent b = true) : piece fresh b rest = .ok (.trivia 0) := by
  refine (Skips.blank ?_).piece_eq
  rcases isIndent_iff.mp h with rfl | rfl | rfl <;> decide

/-- Only of a number sign it matters whether the line is fresh. -/
theorem piece_of_ne_sign (h : b ≠ ascii '#') : piece fresh b rest = piece fresh' b rest := by
  simp [piece, trivia?, h]

theorem plain_sign : plain (ascii '#') rest = .error ⟨0, .unexpectedChar '#'⟩ := by
  have hfind : punctuators.find? (startsWith · (ascii '#' :: rest)) = none := by
    rw [List.find?_eq_none]
    intro q hq hstarts
    obtain ⟨c, hc, hhead⟩ := (Option.any_eq_true _ _).mp (head_of_mem_punctuators q hq)
    obtain ⟨cs, hcs⟩ := List.head?_eq_some_iff.mp hc
    have hne : ascii '#' ≠ ascii c := fun heq => by
      rw [← heq] at hhead
      exact absurd hhead (by decide)
    rw [startsWith_of_head_ne hcs hne] at hstarts
    cases hstarts
  rw [plain_of_not_startsNumber rfl, hfind]
  rfl

/-- On a line that is not fresh there is no preprocessor line. -/
theorem piece_sign_stale :
    piece false (ascii '#') rest = .error ⟨0, .unexpectedChar '#'⟩ := by
  have htrivia : trivia? false (ascii '#') rest = .ok none := by
    rw [trivia?_of_not_slash (by decide) (by decide)]
    rfl
  have hident : identifier? (ascii '#' :: rest) = none :=
    (identifier?_ascii (by decide)).mpr (by decide +kernel)
  have hmarked : marked? (ascii '#') rest = .ok none := marked?_of_not_mark (by decide)
  simp only [piece, htrivia, hident, hmarked, bind, Except.bind, plain_sign]

/-- The state on a line that is fresh or is not. -/
def State.onLine (fresh : Bool) (s : State) : State := { s with fresh }

/-- A byte of an indent leaves the line as it is. -/
theorem run_indent (h : isIndent b = true) (fresh : Bool) (s : State) :
    run (s.onLine fresh) (b :: rest) = run ((s.advance (.trivia 0) [b]).onLine fresh) rest := by
  have hpiece : piece (s.onLine fresh).fresh b rest = .ok (.trivia 0) := piece_of_isIndent h
  have hadvance : (s.onLine fresh).advance (.trivia 0) [b] =
      (s.advance (.trivia 0) [b]).onLine fresh := by
    simp only [State.advance, State.onLine, List.foldl_cons, List.foldl_nil,
      freshAfter_of_isIndent h]
  rw [run, hpiece]
  simp only [Piece.more, List.take_zero, List.drop_zero, State.token?, Option.toList_none,
    List.nil_append, hadvance]
  exact bind_pure _

/-- A text that does not open with a preprocessor line is read alike on every line. -/
theorem run_stale (h : opensWithDirective bs = false) (s : State) :
    run (s.onLine false) bs = run (s.onLine true) bs := by
  induction bs generalizing s with
  | nil => rw [run, run]; rfl
  | cons b rest ih =>
    cases hindent : isIndent b with
    | true =>
      rw [opensWithDirective, List.dropWhile_cons_of_pos hindent] at h
      rw [run_indent hindent, run_indent hindent, ih h]
    | false =>
      have hsign : b ≠ ascii '#' := by
        rintro rfl
        rw [opensWithDirective, List.dropWhile_cons_of_neg (by simp [hindent])] at h
        simp at h
      have hpiece : piece (s.onLine false).fresh b rest = piece (s.onLine true).fresh b rest :=
        piece_of_ne_sign hsign
      -- behind a byte that is no indent the line is fresh or not whatever it was before
      have hadvance (p : Piece) (bs : List UInt8) :
          (s.onLine false).advance p (b :: bs) = (s.onLine true).advance p (b :: bs) := by
        simp only [State.advance, State.onLine, List.foldl_cons,
          freshAfter_of_not_isIndent hindent false true]
      rw [run, run, hpiece]
      simp only [hadvance]
      rfl

/-- On a line that is not fresh the sign of a preprocessor line is refused. -/
theorem run_stale_directive (h : opensWithDirective bs = true) (s : State) :
    run (s.onLine false) bs =
      .error ⟨s.offset + countWhile isIndent bs, .unexpectedChar '#'⟩ := by
  -- along the indents, which leave the line as stale as it is
  induction bs generalizing s with
  | nil => cases h
  | cons b rest ih =>
    cases hindent : isIndent b with
    | true =>
      rw [opensWithDirective, List.dropWhile_cons_of_pos hindent] at h
      have hoffset : ((s.offset + 1 : Nat) + countWhile isIndent rest : Int) =
          s.offset + countWhile isIndent (b :: rest) := by
        rw [countWhile, countWhile, List.takeWhile_cons_of_pos hindent, List.length_cons]
        omega
      rw [run_indent hindent, ih h]
      exact congrArg (fun k => Except.error (SyntaxError.mk k (.unexpectedChar '#'))) hoffset
    | false =>
      rw [opensWithDirective, List.dropWhile_cons_of_neg (by simp [hindent])] at h
      obtain rfl : b = ascii '#' := by simpa using h
      have hpiece : piece (s.onLine false).fresh (ascii '#') rest =
          .error ⟨0, .unexpectedChar '#'⟩ := piece_sign_stale
      rw [run, hpiece, countWhile, List.takeWhile_cons_of_neg (by simp [hindent])]
      rfl

/-! ### The mark -/

/-- Whether a text is read behind a byte-order mark as it is without it: both readings fail, or both
yield the same tokens, those behind the mark three bytes further on, and the same nullable flag. -/
def MarkTransparent (source : List UInt8) : Prop :=
  match CSharpAudit.lex source, CSharpAudit.lex (byteOrderMark ++ source) with
  | .ok (tokens, nullable), .ok (tokens', nullable') =>
    tokens' = tokens.map (Token.shift 3) ∧ nullable' = nullable
  | .error _, .error _ => True
  | _, _ => False

theorem lex_of_no_mark (h : ¬byteOrderMark <+: source) :
    CSharpAudit.lex source = run (State.onLine true {}) source := by
  rw [CSharpAudit.lex, if_neg (by rwa [List.isPrefixOf_iff_prefix])]
  rfl

theorem lex_behind_mark (source : List UInt8) :
    CSharpAudit.lex (byteOrderMark ++ source) =
      shiftReading 3 (run (State.onLine false {}) source) := by
  rw [← run_shift, CSharpAudit.lex,
    if_pos (List.isPrefixOf_iff_prefix.mpr (List.prefix_append _ _))]
  rfl

/-- A text that begins with no mark is read behind one as it is without it, but for the offsets of
its tokens or of its fault, unless it opens with a preprocessor line. The sign of such a line is
refused behind a mark. So the mark is transparent for all texts but those that open with a
preprocessor line and have no fault. -/
theorem markTransparent_iff (source : List UInt8) (h : ¬byteOrderMark <+: source) :
    (opensWithDirective source = false →
      CSharpAudit.lex (byteOrderMark ++ source) = shiftReading 3 (CSharpAudit.lex source)) ∧
    (opensWithDirective source = true → CSharpAudit.lex (byteOrderMark ++ source) =
      .error ⟨countWhile isIndent source + 3, .unexpectedChar '#'⟩) ∧
    (MarkTransparent source ↔
      opensWithDirective source = false ∨ (CSharpAudit.lex source).isOk = false) := by
  have hplain (hopens : opensWithDirective source = false) :
      CSharpAudit.lex (byteOrderMark ++ source) = shiftReading 3 (CSharpAudit.lex source) := by
    rw [lex_behind_mark, run_stale hopens, lex_of_no_mark h]
  have hdirective (hopens : opensWithDirective source = true) :
      CSharpAudit.lex (byteOrderMark ++ source) =
        .error ⟨countWhile isIndent source + 3, .unexpectedChar '#'⟩ := by
    rw [lex_behind_mark, run_stale_directive hopens]
    exact congrArg (fun k => Except.error (SyntaxError.mk (k + 3) (.unexpectedChar '#')))
      (Int.zero_add _)
  refine ⟨hplain, hdirective, ?_⟩
  -- Both readings are known now, so they can be compared as a whole.
  unfold MarkTransparent
  cases hopens : opensWithDirective source with
  | false =>
    rw [hplain hopens]
    cases CSharpAudit.lex source <;> simp [shiftReading]
  | true =>
    rw [hdirective hopens]
    cases CSharpAudit.lex source <;> simp [Except.isOk, Except.toBool]

/-- A text with a preprocessor line that is not the first. -/
def secondLineText : List UInt8 := "\n#nullable enable\nclass C;".toList.map ascii

/-- The mark is transparent for a text whose preprocessor line is not the first one. -/
theorem secondLineText_markTransparent :
    ¬byteOrderMark <+: secondLineText ∧ MarkTransparent secondLineText := by
  have hmark : ¬byteOrderMark <+: secondLineText := by decide
  exact ⟨hmark, (markTransparent_iff secondLineText hmark).2.2.mpr (.inl (by decide))⟩

/-- A text that opens with a preprocessor line. -/
def firstLineText : List UInt8 := "#nullable enable\nclass C;".toList.map ascii

/-- A text that opens with `#nullable enable` is read without a mark, but not behind one. -/
theorem firstLineText_refused_behind_mark :
    ¬byteOrderMark <+: firstLineText ∧ (CSharpAudit.lex firstLineText).isOk = true ∧
      (CSharpAudit.lex (byteOrderMark ++ firstLineText)).isOk = false ∧
        ¬MarkTransparent firstLineText := by
  obtain ⟨hread, hrefused⟩ : (CSharpAudit.lex firstLineText).isOk = true ∧
      (CSharpAudit.lex (byteOrderMark ++ firstLineText)).isOk = false := by
    rw [show firstLineText = _ from ascii_ofList _]
    decide +kernel
  refine ⟨by decide, hread, hrefused, ?_⟩
  unfold MarkTransparent
  cases hplain : CSharpAudit.lex firstLineText with
  | error e => simp [hplain, Except.isOk, Except.toBool] at hread
  | ok r =>
    cases hmark : CSharpAudit.lex (byteOrderMark ++ firstLineText) with
    | error e => exact id
    | ok r' => simp [hmark, Except.isOk, Except.toBool] at hrefused

end Lexer

end CSharpAudit
