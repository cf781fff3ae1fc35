import CSharpAudit.Proofs.Layouts
import CSharpAudit.Proofs.Trivia

/-!
# Tokens tile the text

The tokens of a source text and the blank text between them make up the whole text: tokens are in
order, no byte is lost, and what lies between two tokens holds no further token.

## Main definitions

* `Token.gap` — the text before a token
* `Lexer.Tiles` — tokens that make up a text together with blank gaps

## Main results

* `Lexer.tiles_of_lex` — the tokens of a text tile it
* `Lexer.faultOf_lex` — a fault is found at a byte of the text
* `Lexer.Tiles.inOrder`, `Lexer.Tiles.final` — what a parser relies on
-/

namespace CSharpAudit

/-- The part of a text that a span covers. -/
def Span.slice (s : Span) (source : List UInt8) : List UInt8 := (source.drop s.start).take s.length

/-- The text before an identifier, without the sign that may stand in front of it. -/
def Token.trim (t : Token) (bs : List UInt8) : List UInt8 :=
  if t.isIdent && bs.getLast? == some (Lexer.ascii '@') then bs.dropLast else bs

/-- The text from an offset to a token. The sign of a verbatim identifier does not count. -/
def Token.gap (source : List UInt8) (start : Nat) (t : Token) : List UInt8 :=
  t.trim (Span.slice ⟨start, t.span.start⟩ source)

namespace Lexer

/-- Tokens that make up a text from an offset on, together with the gaps between them. -/
inductive Tiles (source : List UInt8) : Nat → List Token → Prop
  | eof {start : Nat} {t : Token} (kind : t.kind = .eof) (text : t.text = "")
      (span : t.span = ⟨source.length, source.length⟩) (start_le : start ≤ source.length)
      (gap : LexesToNothing (t.gap source start)) : Tiles source start [t]
  | cons {start : Nat} {t : Token} {ts : List Token} (kind : t.kind ≠ .eof)
      (text : t.text = Text.Utf8.text (t.span.slice source)) (start_le : start ≤ t.span.start)
      (start_lt_stop : t.span.start < t.span.stop) (stop_le : t.span.stop ≤ source.length)
      (gap : LexesToNothing (t.gap source start)) (behind : Tiles source t.span.stop ts) :
      Tiles source start (t :: ts)

variable {source bs rest xs ys : List UInt8} {fresh fresh' : Bool} {b : UInt8} {p : Piece}
  {t u : Token} {ts : List Token} {offset : Nat}

/-! ### Gaps -/

theorem prefix_trim (t : Token) (bs : List UInt8) : t.trim bs <+: bs := by
  unfold Token.trim
  split
  · exact List.dropLast_prefix bs
  · exact List.prefix_refl bs

/-- A gap consists of what was skipped and the gap behind it. -/
theorem trim_append (h : t.isIdent = true → ys = [] → xs.getLast? ≠ some (ascii '@')) :
    t.trim (xs ++ ys) = xs ++ t.trim ys := by
  cases hident : t.isIdent with
  | false => simp [Token.trim, hident]
  | true =>
    cases hys : ys with
    | nil => simp [Token.trim, h hident hys]
    | cons y ys =>
      have hlast : (xs ++ y :: ys).getLast? = (y :: ys).getLast? := by
        rw [List.getLast?_append, List.getLast?_cons]
        rfl
      unfold Token.trim
      rw [hlast]
      split
      · exact List.dropLast_append_of_ne_nil (by simp)
      · rfl

/-- A slice consists of a piece and the slice behind it. -/
theorem slice_append {start stop : Nat} (h : source.drop start = xs ++ rest)
    (hle : start + xs.length ≤ stop) :
    Span.slice ⟨start, stop⟩ source = xs ++ Span.slice ⟨start + xs.length, stop⟩ source := by
  have hrest : source.drop (start + xs.length) = rest := by
    rw [← List.drop_drop, h, List.drop_left]
  simp only [Span.slice, Span.length, h, hrest]
  rw [List.take_append, List.take_of_length_le (by omega), Nat.sub_sub]

theorem slice_self (offset : Nat) (source : List UInt8) :
    Span.slice ⟨offset, offset⟩ source = [] := by
  simp [Span.slice, Span.length]

/-- What is read from an offset on: a first token with a blank gap before it, and more tokens. -/
structure TilesFrom (source : List UInt8) (fresh : Bool) (offset : Nat) (t : Token)
    (ts : List Token) : Prop where
  le : offset ≤ t.span.start
  /-- No token starts with the end of a line. -/
  lt_of_newline : (source.drop offset).head? = some newline → offset < t.span.start
  blank : Blank fresh (t.gap source offset)
  tiles : ∀ start ≤ t.span.start, LexesToNothing (t.gap source start) → Tiles source start (t :: ts)

theorem TilesFrom.start_lt (h : TilesFrom source fresh offset t ts) (hident : t.isIdent = true) :
    t.span.start < source.length := by
  cases h.tiles offset h.le h.blank.lex with
  | eof kind => simp [Token.isIdent, kind] at hident
  | cons kind text start_le start_lt_stop stop_le => omega

/-- At the end of the text stands the last token. -/
theorem TilesFrom.eof {doc : String} :
    TilesFrom source fresh source.length ⟨.eof, "", ⟨source.length, source.length⟩, doc⟩ [] where
  le := Nat.le_refl _
  lt_of_newline hnewline := by simp at hnewline
  blank := by
    rw [Token.gap, slice_self]
    exact .nil
  tiles _ hle hgap := .eof rfl rfl rfl hle hgap

/-- The bytes of a piece: the first one and as many more as the piece has. -/
theorem length_bytes (hmore : p.more ≤ rest.length) :
    (b :: rest.take p.more).length = p.more + 1 := by
  rw [List.length_cons, List.length_take_of_le hmore]

theorem drop_behind (hdrop : source.drop offset = b :: rest) (more : Nat) :
    source.drop (offset + (more + 1)) = rest.drop more := by
  rw [← List.drop_drop, hdrop, List.drop_succ_cons]

/-- What is skipped becomes a part of the gap. -/
theorem TilesFrom.skip (h : TilesFrom source fresh' (offset + (p.more + 1)) t ts)
    (hskips : Skips fresh b rest p) (hdrop : source.drop offset = b :: rest)
    (hfresh : fresh' = (b :: rest.take p.more).foldl freshAfter fresh) :
    TilesFrom source fresh offset t ts where
  le := Nat.le_trans (Nat.le_add_right _ _) h.le
  lt_of_newline _ := by
    have := h.le
    omega
  blank := by
    have hlength := length_bytes (b := b) hskips.more_le
    have hpiece : source.drop offset = (b :: rest.take p.more) ++ rest.drop p.more := by
      rw [hdrop, List.cons_append, List.take_append_drop]
    have hbehind := drop_behind hdrop p.more
    have hgap : t.gap source offset =
        (b :: rest.take p.more) ++ t.gap source (offset + (p.more + 1)) := by
      rw [Token.gap, slice_append hpiece (by rw [hlength]; exact h.le), hlength]
      refine trim_append fun hident hnil hat => ?_
      -- what is skipped ends in an at sign at the end of a line only, where no token starts
      have hlt := h.start_lt hident
      have hle := h.le
      have hnewline : (source.drop (offset + (p.more + 1))).head? = some newline := by
        rw [hbehind]
        cases hhead : (rest.drop p.more).head? with
        | some d => rw [hskips.newline_of_at hat hhead]
        | none =>
          have hlength := congrArg List.length (List.head?_eq_none_iff.mp hhead)
          rw [← hbehind, List.length_drop, List.length_nil] at hlength
          omega
      have := h.lt_of_newline hnewline
      have hlength := congrArg List.length hnil
      simp only [Span.slice, Span.length, List.length_take, List.length_drop,
        List.length_nil] at hlength
      omega
    have hcut : t.gap source (offset + (p.more + 1)) <+: rest.drop p.more := by
      refine (prefix_trim t _).trans ?_
      rw [← hbehind]
      exact List.take_prefix _ _
    rw [hgap, List.cons_append]
    refine .cons (hskips.cut hcut) ?_
    rw [List.take_left' (List.length_take_of_le hskips.more_le),
      List.drop_left' (List.length_take_of_le hskips.more_le), ← hfresh]
    exact h.blank
  tiles start hle := h.tiles start hle

/-- The bytes of a token, found in the text from the offset of its piece on. -/
theorem slice_piece (hdrop : source.drop offset = b :: rest) (lead more : Nat) :
    Span.slice ⟨offset + lead, offset + (more + 1)⟩ source = (b :: rest.take more).drop lead := by
  rw [← List.take_succ_cons, List.drop_take, Span.slice, Span.length, ← List.drop_drop, hdrop]
  congr 1
  show offset + (more + 1) - (offset + lead) = more + 1 - lead
  omega

/-- A token is put in front of those behind it. -/
theorem TilesFrom.token {kind : TokenKind} {lead more : Nat} {doc : String}
    (h : TilesFrom source fresh' (offset + (more + 1)) t ts)
    (htoken : (Piece.token kind lead more).IsToken b rest) (hb : b ≠ newline)
    (hdrop : source.drop offset = b :: rest) :
    TilesFrom source fresh offset ⟨kind, Text.Utf8.text ((b :: rest.take more).drop lead),
      ⟨offset + lead, offset + (more + 1)⟩, doc⟩ (t :: ts) where
  le := Nat.le_add_right _ _
  lt_of_newline hnewline := by
    rw [hdrop] at hnewline
    exact absurd (Option.some.inj hnewline) hb
  blank := by
    have hgap : Token.gap source offset ⟨kind, Text.Utf8.text ((b :: rest.take more).drop lead),
        ⟨offset + lead, offset + (more + 1)⟩, doc⟩ = [] := by
      -- Nothing stands in front of the token but the at sign of an identifier.
      rcases htoken.2.2 with rfl | ⟨rfl, rfl, rfl, -⟩
      · rw [Token.gap, Nat.add_zero, slice_self]
        exact List.prefix_nil.mp (prefix_trim _ [])
      · have hsign : Span.slice ⟨offset, offset + 1⟩ source = [ascii '@'] := by
          simp [Span.slice, Span.length, hdrop]
        simp [Token.gap, Token.trim, hsign, Token.isIdent]
    rw [hgap]
    exact .nil
  tiles start hle hgap := by
    obtain ⟨hkind, hmore, hlead⟩ := htoken
    have hlength := congrArg List.length hdrop
    rw [List.length_drop, List.length_cons] at hlength
    refine .cons hkind ?_ hle ?_ ?_ hgap (h.tiles _ h.le h.blank.lex)
    · rw [slice_piece hdrop]
    · show offset + lead < offset + (more + 1)
      omega
    · show offset + (more + 1) ≤ source.length
      omega

/-! ### The whole text -/

/-- A piece lies inside the text. -/
theorem more_le_of_piece (h : Skips fresh b rest p ∨ p.IsToken b rest) : p.more ≤ rest.length := by
  rcases h with h | h
  · exact h.more_le
  · cases p with
    | token kind lead more => exact h.2.1
    | _ => exact h.elim

/-- A fault that is found at a byte of a text and tells of the text. -/
def FaultOf (source : List UInt8) (e : SyntaxError) : Prop :=
  (0 ≤ e.offset ∧ e.offset < source.length) ∧ e.cause.isEndless = false

/-- The tokens read from an offset on tile the text from there on, and a fault is found at one of
its bytes. -/
theorem tilesFrom_run (source bs : List UInt8) (s : State) (hdrop : source.drop s.offset = bs)
    (hle : s.offset ≤ source.length) :
    match run s bs with
    | .ok (tokens, _) => ∃ t ts, tokens = t :: ts ∧ TilesFrom source s.fresh s.offset t ts
    | .error e => FaultOf source e := by
  fun_induction run s bs with
  | case1 s =>
    have hoffset : s.offset = source.length := by
      have := List.drop_eq_nil_iff.mp hdrop
      omega
    rw [hoffset]
    exact ⟨_, _, rfl, .eof⟩
  | case2 s b rest f hpiece =>
    have hscan := scans_piece s.fresh b rest
    have hlength := congrArg List.length hdrop
    rw [hpiece] at hscan
    rw [List.length_drop, List.length_cons] at hlength
    have hdistance : f.distance ≤ rest.length := hscan.distance_le
    refine ⟨⟨?_, ?_⟩, hscan.isEndless_eq⟩
    · show (0 : Int) ≤ s.offset + f.distance
      omega
    · show (s.offset + f.distance : Int) < source.length
      omega
  | case3 s b rest p hpiece bs ih =>
    have hscan := scans_piece s.fresh b rest
    rw [hpiece] at hscan
    have hmore : p.more ≤ rest.length := more_le_of_piece hscan
    have hadvance : (s.advance p bs).offset = s.offset + (p.more + 1) :=
      congrArg (s.offset + ·) (length_bytes hmore)
    have hlength := congrArg List.length hdrop
    rw [List.length_drop, List.length_cons] at hlength
    rw [hadvance] at ih
    have ih := ih (drop_behind hdrop p.more) (by omega)
    cases hrun : run (s.advance p bs) (rest.drop p.more) with
    | error e =>
      rw [hrun] at ih
      exact ih
    | ok r =>
      rw [hrun] at ih
      obtain ⟨t, ts, htokens, htiles⟩ := ih
      show ∃ u us, (s.token? p bs).toList ++ r.1 = u :: us ∧
        TilesFrom source s.fresh s.offset u us
      -- what is skipped joins the gap in front of the next token, and a token starts a gap anew
      rcases hscan with hskips | htoken
      · rw [hskips.token?_eq]
        exact ⟨t, ts, htokens, htiles.skip hskips hdrop rfl⟩
      · have hb : b ≠ newline := by
          rintro rfl
          rw [(Skips.blank (by decide)).piece_eq] at hpiece
          cases hpiece
          exact htoken
        cases p with
        | token kind lead more =>
          refine ⟨_, r.1, rfl, ?_⟩
          have hstop : s.offset + bs.length = s.offset + (more + 1) := hadvance
          rw [htokens, hstop]
          exact htiles.token htoken hb hdrop
        | _ => exact htoken.elim

/-- The mark in front of a text is a part of its first gap. -/
theorem gap_byteOrderMark (hbom : byteOrderMark <+: source) (h : 3 ≤ t.span.start) :
    t.gap source 0 = byteOrderMark ++ t.gap source 3 := by
  obtain ⟨rest, rfl⟩ := hbom
  have hdrop : (byteOrderMark ++ rest).drop 0 = byteOrderMark ++ rest := rfl
  rw [Token.gap, slice_append hdrop h]
  exact trim_append fun _ _ => by decide

/-- The tokens of a text tile it. -/
theorem tiles_of_lex {tokens : List Token} {nullable : Bool}
    (h : CSharpAudit.lex source = .ok (tokens, nullable)) : Tiles source 0 tokens := by
  unfold CSharpAudit.lex at h
  split at h
  · rename_i hbom
    have hbom := List.isPrefixOf_iff_prefix.mp hbom
    have hrun := tilesFrom_run source _ { offset := 3, fresh := false } rfl hbom.length_le
    rw [h] at hrun
    obtain ⟨t, ts, rfl, hfrom⟩ := hrun
    refine hfrom.tiles 0 (Nat.zero_le _) ?_
    rw [gap_byteOrderMark hbom hfrom.le]
    exact hfrom.blank.lex_byteOrderMark
  · have hrun := tilesFrom_run source source {} rfl (Nat.zero_le _)
    rw [h] at hrun
    obtain ⟨t, ts, rfl, hfrom⟩ := hrun
    exact hfrom.tiles 0 (Nat.zero_le _) hfrom.blank.lex

/-- A fault of the lexer lies inside the text. -/
theorem faultOf_lex {e : SyntaxError} (h : CSharpAudit.lex source = .error e) :
    FaultOf source e := by
  unfold CSharpAudit.lex at h
  split at h
  · rename_i hbom
    have hbom := List.isPrefixOf_iff_prefix.mp hbom
    have hrun := tilesFrom_run source _ { offset := 3, fresh := false } rfl hbom.length_le
    rwa [h] at hrun
  · have hrun := tilesFrom_run source source {} rfl (Nat.zero_le _)
    rwa [h] at hrun

/-- A text that is accepted is tiled by its tokens, and one that is refused is refused at one of its
bytes. -/
theorem lex_tiles_or_faults (source : List UInt8) :
    match CSharpAudit.lex source with
    | .ok (tokens, _) => Tiles source 0 tokens
    | .error e => 0 ≤ e.offset ∧ e.offset < source.length := by
  cases h : CSharpAudit.lex source with
  | ok r => exact tiles_of_lex h
  | error e => exact (faultOf_lex h).1

/-! ### What a parser relies on -/

/-- Behind all other tokens stands the one that marks the end of the file. -/
theorem Tiles.exists_concat {start : Nat} {tokens : List Token} (h : Tiles source start tokens) :
    ∃ (ts : List Token) (t : Token), tokens = ts ++ [t] ∧ t.erase = .final ∧
      t.span = ⟨source.length, source.length⟩ ∧ InOrder source.length start ts ∧
      ∀ u ∈ ts, u.text = Text.Utf8.text (u.span.slice source) := by
  induction h with
  | @eof start t kind text span start_le gap =>
    refine ⟨[], t, rfl, ?_, span, start_le, by simp⟩
    rw [Token.erase, kind, text]
    rfl
  | @cons start t ts kind text start_le start_lt_stop stop_le gap behind ih =>
    obtain ⟨us, u, rfl, herase, hspan, horder, htexts⟩ := ih
    refine ⟨t :: us, u, rfl, herase, hspan, ⟨start_le, start_lt_stop, horder⟩, ?_⟩
    rintro v (_ | ⟨_, hv⟩)
    · exact text
    · exact htexts v hv

/-- A token that is read as a parenthesis is written as one. -/
theorem getElem?_of_is_paren (htext : t.text = Text.Utf8.text (t.span.slice source))
    (h : t.is "(" = true) : source[t.span.start]? = some (ascii '(') := by
  have hparen : Text.Utf8.text (t.span.slice source) = "(" := by
    rw [← htext]
    exact beq_iff_eq.mp (Bool.and_eq_true_iff.mp h).2
  have hhead := Text.Utf8.head?_of_text_eq (c := '(') (by decide) (by decide) (by decide) hparen
  rw [Span.slice, List.head?_take] at hhead
  split at hhead
  · cases hhead
  · rwa [List.head?_drop] at hhead

end Lexer

/-- The tokens of a text and whether it enables nullable references, nothing for a text that is
refused. -/
def lexed (source : List UInt8) : List Token × Bool := (lex source).toOption.getD ([], false)

theorem lex_eq_lexed {source : List UInt8} (h : (lex source).isOk = true) :
    lex source = .ok ((lexed source).1, (lexed source).2) := by
  rw [lexed]
  cases hlex : lex source with
  | error e =>
    rw [hlex] at h
    cases h
  | ok r => rfl

end CSharpAudit
