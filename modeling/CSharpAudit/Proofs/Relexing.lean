import CSharpAudit.Proofs.Lexing
import CSharpAudit.Proofs.LookAhead

/-!
# Lexing again

A token depends on its own bytes alone. Wherever it stands apart, with nothing or a space behind it,
it is read as before; so the tokens of a text can be written one after another with single spaces
between them and are read again. Identifiers get a sign in front, which keeps those that are spelled
like reserved words from being read as these.

## Main definitions

* `Lexer.Finds` — how the token at the head of a text is found
* `respaced` — tokens written one after another, with single spaces between them
* `Relexes` — what is written so is read again
* `Lexer.StandsApart` — a token is read from its own bytes wherever it stands apart

## Main results

* `Lexer.piece_apart` — a token is found as before if nothing but a space stands behind it
* `Lexer.run_respaced` — tokens that stand apart are read one by one
* `relexing_stable` — the tokens of an accepted text are read again as they were
-/

namespace CSharpAudit.Lexer

variable {bs rest cut : List UInt8} {fresh : Bool} {b : UInt8} {p : Piece} {n lead more : Nat}
  {kind : TokenKind}

/-! ### The token at the head of a text -/

/-- How the token at the head of `b :: rest` is found. -/
inductive Finds (b : UInt8) (rest : List UInt8) : Piece → Prop
  | word {n : Nat} (h : identifier? (b :: rest) = some n) :
    Finds b rest (.token
      (if keywords.contains (Text.Utf8.text ((b :: rest).take n)) then .keyword else .ident)
      0 (n - 1))
  | marked {p : Piece} (hnone : identifier? (b :: rest) = none)
    (h : marked? b rest = .ok (some p)) : Finds b rest p
  | plain {p : Piece} (hnone : identifier? (b :: rest) = none) (hmarked : marked? b rest = .ok none)
    (h : plain b rest = .ok p) : Finds b rest p

/-- What is found at the head of a text is the piece that the lexer reads. -/
theorem Finds.piece_eq (h : Finds b rest p) (htrivia : trivia? fresh b rest = .ok none) :
    piece fresh b rest = .ok p := by
  cases h with
  | word h => simp [piece, htrivia, h, bind, Except.bind, pure, Except.pure]
  | marked hnone h => simp [piece, htrivia, hnone, h, bind, Except.bind, pure, Except.pure]
  | plain hnone hmarked h => simp [piece, htrivia, hnone, hmarked, h, bind, Except.bind]

/-- What is no white space and no comment is found as a token. -/
theorem finds_of_piece (h : piece fresh b rest = .ok (.token kind lead more)) :
    trivia? fresh b rest = .ok none ∧ Finds b rest (.token kind lead more) := by
  -- trivia, a word, what has a mark in front, or anything else
  unfold piece at h
  cases htrivia : trivia? fresh b rest with
  | error f => simp [htrivia, bind, Except.bind] at h
  | ok o =>
    cases o with
    | some q =>
      obtain rfl : q = .token kind lead more := by
        simpa [htrivia, bind, Except.bind, pure, Except.pure] using h
      cases (skips_of_trivia? htrivia).token?_eq {} []
    | none =>
      refine ⟨rfl, ?_⟩
      cases hident : identifier? (b :: rest) with
      | some n =>
        simp only [htrivia, hident, bind, Except.bind, pure, Except.pure, Except.ok.injEq] at h
        exact h ▸ .word hident
      | none =>
        cases hmarked : marked? b rest with
        | error f => simp [htrivia, hident, hmarked, bind, Except.bind] at h
        | ok o =>
          cases o with
          | some q =>
            obtain rfl : q = .token kind lead more := by
              simpa [htrivia, hident, hmarked, bind, Except.bind, pure, Except.pure] using h
            exact .marked hident hmarked
          | none =>
            refine .plain hident hmarked ?_
            simpa [htrivia, hident, hmarked, bind, Except.bind] using h

/-! ### First bytes -/

/-- Whether an identifier starts at an ASCII byte shows by that byte. -/
theorem identifier?_ascii (hb : b < 0x80) :
    identifier? (b :: rest) = none ↔ isIdentStart (Char.ofNat b.toNat) = false := by
  simp [identifier?, Text.Utf8.next_ascii hb, Text.Utf8.Piece.toChar]

/-- No identifier starts with an ASCII byte that is not a letter or an underscore. -/
theorem ne_of_identifier? {d : UInt8} (hd : d < 0x80)
    (hstart : isIdentStart (Char.ofNat d.toNat) = false) (h : identifier? (b :: rest) = some n) :
    b ≠ d := by
  rintro rfl
  rw [(identifier?_ascii hd).mpr hstart] at h
  cases h

theorem startsWith_of_head_ne {s : String} {c : Char} {cs : List Char} (hs : s.toList = c :: cs)
    (hb : b ≠ ascii c) : startsWith s (b :: rest) = false := by
  rw [startsWith, hs, List.map_cons, List.isPrefixOf_cons_cons, beq_eq_false_iff_ne.mpr hb.symm,
    Bool.false_and]

/-- Without a mark no literal and no sign is found. -/
theorem marked?_of_not_mark (h : isOneOf "@$\"'" b = false) : marked? b rest = .ok none := by
  have hne {c : Char} (hc : isOneOf "@$\"'" (ascii c) = true) : ¬(b == ascii c) = true := by
    intro heq
    rw [beq_iff_eq.mp heq, hc] at h
    cases h
  simp only [marked?]
  rw [if_neg (hne (by decide)), if_neg (hne (by decide)), if_neg (hne (by decide)),
    if_neg (hne (by decide))]

theorem marked?_head (h : marked? b rest = .ok (some p)) : isOneOf "@$\"'" b = true := by
  by_contra hmark
  rw [marked?_of_not_mark (Bool.eq_false_iff.mpr hmark)] at h
  cases h

theorem head_of_mem_punctuators : ∀ q ∈ punctuators,
    q.toList.head?.any fun c => ascii c < 0x80 && !isOneOf "#$\"'" (ascii c) := by decide

theorem digit_head (h : isDigit b = true) : b < 0x80 ∧ isOneOf "#$\"'" b = false := by
  obtain ⟨hlow, hhigh⟩ := Bool.and_eq_true_iff.mp h
  have hmarks : "#$\"'".toList.all (fun c => !decide (ascii '0' ≤ ascii c)) = true := by decide
  refine ⟨UInt8.lt_of_le_of_lt (of_decide_eq_true hhigh) (by decide),
    Bool.eq_false_iff.mpr fun hmark => ?_⟩
  obtain ⟨c, hc, heq⟩ := List.any_eq_true.mp hmark
  obtain rfl := beq_iff_eq.mp heq
  have hnot := List.all_eq_true.mp hmarks c hc
  rw [hlow] at hnot
  cases hnot

theorem plain_head (h : plain b rest = .ok p) : b < 0x80 ∧ isOneOf "#$\"'" b = false := by
  cases hstarts : startsNumber b rest with
  | true =>
    rcases Bool.or_eq_true_iff.mp hstarts with hdigit | hpoint
    · exact digit_head hdigit
    · obtain rfl := beq_iff_eq.mp (Bool.and_eq_true_iff.mp hpoint).1
      decide
  | false =>
    rw [plain_of_not_startsNumber hstarts] at h
    split at h
    · rename_i q hq
      have hhead := head_of_mem_punctuators q (List.mem_of_find?_eq_some hq)
      have hstarts : startsWith q (b :: rest) = true :=
        List.find?_some (p := (startsWith · (b :: rest))) hq
      cases hchars : q.toList with
      | nil => simp [hchars] at hhead
      | cons c cs =>
        have hb : ascii c = b := by
          simp only [startsWith, hchars, List.map_cons, List.isPrefixOf_cons_cons, Bool.and_eq_true,
            beq_iff_eq] at hstarts
          exact hstarts.1
        simpa [hchars, hb] using hhead
    · cases h

theorem plain_at (h : plain (ascii '@') rest = .ok p) : p = .token .punct 0 0 := by
  have hfind : punctuators.find? (startsWith · (ascii '@' :: rest)) = some "@" := rfl
  rw [plain_of_not_startsNumber rfl, hfind] at h
  cases h
  rfl

/-! ### A space behind a token -/

theorem trivia?_apart {fresh' : Bool} (hcut : Apart cut) (hsign : b ≠ ascii '#')
    (hnext : 0x80 ≤ b → Text.Utf8.next b (rest.take n ++ cut) = Text.Utf8.next b rest)
    (h : trivia? fresh b rest = .ok none) : trivia? fresh' b (rest.take n ++ cut) = .ok none := by
  unfold trivia? at h ⊢
  split at h
  · cases h
  rename_i hblank
  split at h
  · cases h
  rename_i hline
  split at h
  · split at h <;> cases h
  rename_i hcomment
  rw [if_neg hblank, ← List.cons_append, ← List.take_succ_cons,
    startsWith_apart hcut (by decide) fun h => absurd h hline, if_neg hline,
    startsWith_apart hcut (by decide) fun h => absurd h hcomment, if_neg hcomment,
    if_neg (by simp [hsign])]
  rw [if_neg (by simp [hsign])] at h
  split at h
  · rename_i hb
    rw [if_pos hb, hnext hb]
    exact h
  · rename_i hb
    exact if_neg hb

/-- The only mark that is a punctuator too is the sign, which is one if no identifier follows. -/
theorem marked?_none_apart (hcut : Apart cut) (h : plain b rest = .ok p) :
    marked? b (rest.take p.more ++ cut) = .ok none := by
  obtain ⟨-, hhead⟩ := plain_head h
  by_cases hat : b = ascii '@'
  -- An at sign alone is a punctuator, and with a space behind it it stays alone.
  · subst hat
    obtain rfl := plain_at h
    cases hcut with
    | nil => rfl
    | space behind =>
      have hnone : identifier? (ascii ' ' :: behind) = none :=
        (identifier?_ascii (by decide)).mpr (by decide)
      show marked? (ascii '@') (ascii ' ' :: behind) = _
      simp only [marked?]
      rw [if_pos (by decide), if_neg (by simp [startsWith, ascii]),
        if_neg (by simp [startsWith, ascii]), hnone]
      rfl
  · refine marked?_of_not_mark ?_
    have hmarks : "#$\"'".toList = '#' :: "$\"'".toList := rfl
    have hmarks' : "@$\"'".toList = '@' :: "$\"'".toList := rfl
    rw [isOneOf, hmarks, List.any_cons, Bool.or_eq_false_iff] at hhead
    rw [isOneOf, hmarks', List.any_cons, hhead.2, Bool.or_false]
    exact beq_eq_false_iff_ne.mpr fun h => hat h.symm

/-- With a space behind it a token is found as before. -/
theorem Finds.apart (hcut : Apart cut) (h : Finds b rest p) :
    Finds b (rest.take p.more ++ cut) p := by
  have hascii (hb : b < 0x80) (hnone : identifier? (b :: rest) = none) :
      identifier? (b :: (rest.take p.more ++ cut)) = none :=
    (identifier?_ascii hb).mpr ((identifier?_ascii hb).mp hnone)
  cases h with
  | @word n h =>
    obtain ⟨hpos, hle⟩ := identifier?_le h
    obtain ⟨m, rfl⟩ : ∃ m, n = m + 1 := ⟨n - 1, by omega⟩
    have hread : identifier? (b :: (rest.take m ++ cut)) = some (m + 1) := identifier?_apart hcut h
    have htake : (b :: (rest.take m ++ cut)).take (m + 1) = (b :: rest).take (m + 1) := by
      rw [List.take_succ_cons, List.take_succ_cons,
        List.take_left' (List.length_take_of_le (Nat.le_of_succ_le_succ hle))]
    rw [← htake]
    exact .word hread
  | marked hnone h =>
    exact .marked (hascii (lt_of_isOneOf (by decide) (marked?_head h)) hnone) (marked?_apart hcut h)
  | plain hnone hmarked h =>
    exact .plain (hascii (plain_head h).1 hnone) (marked?_none_apart hcut h)
      (plain_apart hcut h)

/-- Whether something else is found in place of a token does not depend on what stands behind. -/
theorem Finds.trivia?_apart {fresh' : Bool} (hcut : Apart cut) (h : Finds b rest p)
    (htrivia : trivia? fresh b rest = .ok none) :
    trivia? fresh' b (rest.take p.more ++ cut) = .ok none := by
  -- Only a word may begin with a character of several bytes, all of which it keeps.
  have hascii (hb : b < 0x80) : 0x80 ≤ b →
      Text.Utf8.next b (rest.take p.more ++ cut) = Text.Utf8.next b rest :=
    fun h => absurd hb (UInt8.not_lt.mpr h)
  cases h with
  | @word n h =>
    obtain ⟨c, k, hnext, -, rfl⟩ := identifier?_cons h
    refine Lexer.trivia?_apart hcut (ne_of_identifier? (by decide) (by decide) h) (fun _ => ?_)
      htrivia
    rw [hnext, next_cut hnext]
    show k ≤ k + 1 + identTail (rest.drop k) - 1
    omega
  | marked hnone h =>
    have hhead := marked?_head h
    refine Lexer.trivia?_apart hcut ?_ (hascii (lt_of_isOneOf (by decide) hhead)) htrivia
    rintro rfl
    exact absurd hhead (by decide)
  | plain hnone hmarked h =>
    obtain ⟨hb, hhead⟩ := plain_head h
    refine Lexer.trivia?_apart hcut ?_ (hascii hb) htrivia
    rintro rfl
    exact absurd hhead (by decide)

/-- A token is found as before if nothing but a space stands behind it. -/
theorem piece_apart (hcut : Apart cut) (h : piece fresh b rest = .ok (.token kind lead more))
    (fresh' : Bool) : piece fresh' b (rest.take more ++ cut) = .ok (.token kind lead more) := by
  obtain ⟨htrivia, hfinds⟩ := finds_of_piece h
  exact (hfinds.apart hcut).piece_eq (hfinds.trivia?_apart hcut htrivia)

theorem isToken_of_piece (h : piece fresh b rest = .ok (.token kind lead more)) :
    (Piece.token kind lead more).IsToken b rest := by
  have hscan := scans_piece fresh b rest
  rw [h] at hscan
  refine hscan.resolve_left fun hskips => ?_
  cases hskips.token?_eq {} []

theorem identifier?_of_marked? (h : marked? b rest = .ok (some (.token .ident lead more))) :
    lead = 1 ∧ identifier? rest = some more := by
  have hstring {x : Except Fault Nat} {f : Nat → Nat} :
      ¬x.map (fun n => some (Piece.token .string 0 (f n))) =
        .ok (some (.token .ident lead more)) := by
    cases x <;> simp [Except.map]
  have hquoted {kind : TokenKind} (hkind : kind ≠ .ident) :
      ¬quotedToken kind b rest = .ok (some (.token .ident lead more)) := by
    unfold quotedToken
    split <;> simp [hkind]
  have hraw {k : Nat} {extent : Option Nat} {fault : SyntaxError.Cause} :
      ¬stringToken k extent fault = .ok (some (.token .ident lead more)) := by
    cases extent <;> simp [stringToken]
  simp only [marked?] at h
  split at h
  · -- behind an at sign stands an identifier unless a string does
    split at h
    · exact absurd h hraw
    split at h
    · exact absurd h hstring
    obtain ⟨n, hn, hp⟩ := Option.map_eq_some_iff.mp (Except.ok.inj h)
    cases hp
    exact ⟨rfl, hn⟩
  -- what starts with a dollar sign or a quotation mark is a literal
  split at h
  · repeat' split at h
    · exact absurd h hraw
    · exact absurd h hstring
    · exact absurd h hstring
    · exact absurd h hraw
    · cases h
    · cases h
  split at h
  · split at h
    · exact absurd h hraw
    · exact absurd h (hquoted (by simp))
  split at h
  · exact absurd h (hquoted (by simp))
  · cases h

theorem plain_ne_ident : plain b rest ≠ .ok (.token .ident lead more) := by
  intro h
  cases hstarts : startsNumber b rest with
  | true =>
    rw [plain_of_startsNumber hstarts] at h
    have hkind : (number (b :: rest)).1 = .ident := (Piece.token.inj (Except.ok.inj h)).1
    rcases number_kind (b :: rest) with h | h <;> simp [h] at hkind
  | false =>
    rw [plain_of_not_startsNumber hstarts] at h
    split at h <;> cases h

/-- The identifier that an identifier token consists of, its sign left out. -/
theorem identifier?_of_piece (h : piece fresh b rest = .ok (.token .ident lead more)) :
    identifier? ((b :: rest).drop lead) = some (more + 1 - lead) := by
  obtain ⟨-, hfinds⟩ := finds_of_piece h
  generalize hp : Piece.token .ident lead more = p at hfinds
  cases hfinds with
  | @word n hread =>
    obtain ⟨-, rfl, rfl⟩ := Piece.token.inj hp
    rwa [List.drop_zero, Nat.sub_add_cancel (identifier?_le hread).1, Nat.sub_zero]
  | marked hnone h =>
    subst hp
    obtain ⟨rfl, hread⟩ := identifier?_of_marked? h
    exact hread
  | plain hnone hmarked h =>
    subst hp
    exact absurd h plain_ne_ident

/-- An identifier is found behind a sign, whatever word it is. -/
theorem piece_sign (hcut : Apart cut) (h : identifier? bs = some n) (fresh : Bool) :
    piece fresh (ascii '@') (bs.take n ++ cut) = .ok (.token .ident 1 n) := by
  obtain ⟨hpos, hle⟩ := identifier?_le h
  obtain ⟨m, rfl⟩ : ∃ m, n = m + 1 := ⟨n - 1, by omega⟩
  have hread := identifier?_apart hcut h
  cases bs with
  | nil => cases h
  | cons b rest =>
    rw [List.take_succ_cons, List.cons_append] at hread ⊢
    have hnone : identifier? (ascii '@' :: b :: (rest.take m ++ cut)) = none :=
      (identifier?_ascii (by decide)).mpr (by decide)
    have hmarked : marked? (ascii '@') (b :: (rest.take m ++ cut)) =
        .ok (some (.token .ident 1 (m + 1))) := by
      simp only [marked?]
      rw [if_pos (by decide),
        startsWith_of_head_ne rfl (ne_of_identifier? (by decide) (by decide) h),
        startsWith_of_head_ne rfl (ne_of_identifier? (by decide) (by decide) h), hread]
      rfl
    refine (Finds.marked hnone hmarked).piece_eq ?_
    rw [trivia?_of_not_slash (by decide) (by decide), if_neg (by simp [ascii]),
      if_neg (by decide)]

theorem not_piece_byteOrderMark :
    piece fresh 0xEF (0xBB :: 0xBF :: rest) ≠ .ok (.token kind lead more) := by
  intro h
  have hstart : isIdentStart '\uFEFF' = false := by
    simp only [isIdentStart, Text.isLetter, contains_eq_any]
    decide +kernel
  have hnext : Text.Utf8.next 0xEF (0xBB :: 0xBF :: rest) = (.char '\uFEFF', 2) := rfl
  obtain ⟨-, hfinds⟩ := finds_of_piece h
  generalize Piece.token kind lead more = p at hfinds
  cases hfinds with
  | word h => simp [identifier?, hnext, Text.Utf8.Piece.toChar, hstart] at h
  | marked hnone h => exact absurd (marked?_head h) (by decide)
  | plain hnone hmarked h => exact absurd (plain_head h).1 (by decide)

end Lexer

/-! ### Writing tokens anew -/

/-- A token as it is written anew: an identifier with a sign in front of it, any other token as it
stands. -/
def Token.written (source : List UInt8) (t : Token) : List UInt8 :=
  if t.isIdent then Lexer.ascii '@' :: t.span.slice source else t.span.slice source

/-- Tokens of a text, written one after another with a single space between any two. -/
def respaced (source : List UInt8) (ts : List Token) : List UInt8 :=
  [Lexer.ascii ' '].intercalate (ts.map (Token.written source))

/-- What a token says about itself: its class, its text and its bytes. -/
def Token.reading (source : List UInt8) (t : Token) : TokenKind × String × List UInt8 :=
  (t.kind, t.text, t.span.slice source)

/-- What the token at the end of the file says about itself. -/
def finalReading : TokenKind × String × List UInt8 := (.eof, "", [])

/-- Tokens of a text are read again as they were, and nothing else is read. -/
def Relexes (source : List UInt8) (ts : List Token) : Prop :=
  ∃ again, lex (respaced source ts) = .ok (again, false) ∧
    again.map (Token.reading (respaced source ts)) = ts.map (Token.reading source) ++ [finalReading]

namespace Lexer

variable {source : List UInt8} {t : Token} {ts tokens : List Token} {nullable : Bool}

/-- A token of a text that is read from its own bytes, wherever it stands apart. -/
structure StandsApart (source : List UInt8) (t : Token) : Prop where
  kind_ne : t.kind ≠ .eof
  text_eq : t.text = Text.Utf8.text (t.span.slice source)
  reads : ∃ b ws lead, t.written source = b :: ws ∧ t.span.slice source = (b :: ws).drop lead ∧
    ∀ fresh cut, Apart cut → piece fresh b (ws ++ cut) = .ok (.token t.kind lead ws.length)

/-- What is written behind a token that the given ones follow. -/
def behind (source : List UInt8) : List Token → List UInt8
  | [] => []
  | t :: ts => ascii ' ' :: respaced source (t :: ts)

/-- Behind each token stands a space or the end. -/
theorem apart_behind (source : List UInt8) (ts : List Token) : Apart (behind source ts) := by
  cases ts with
  | nil => exact .nil
  | cons t ts => exact .space _

/-- A text is put together from its tokens, with a space behind each. -/
theorem respaced_cons (source : List UInt8) (t : Token) (ts : List Token) :
    respaced source (t :: ts) = t.written source ++ behind source ts := by
  cases ts with
  | nil => simp [respaced, behind]
  | cons u ts => simp [respaced, behind, List.intercalate]

/-- A token is found again where a space stands behind it. -/
theorem standsApart_of_piece {offset : Nat} (hdrop : source.drop offset = b :: rest)
    (h : piece fresh b rest = .ok (.token kind lead more)) (doc : String) :
    StandsApart source ⟨kind, Text.Utf8.text ((b :: rest.take more).drop lead),
      ⟨offset + lead, offset + (more + 1)⟩, doc⟩ := by
  have hslice := slice_piece hdrop lead more
  obtain ⟨hkind, hmore, hlead⟩ := isToken_of_piece h
  refine ⟨hkind, by rw [hslice], ?_⟩
  -- An identifier is written with an at sign in front, so that it is no keyword.
  by_cases hident : kind = .ident
  · subst hident
    have hread := identifier?_of_piece h
    have hbytes : (b :: rest.take more).drop lead =
        ((b :: rest).drop lead).take (more + 1 - lead) := by
      rw [← List.take_succ_cons, List.drop_take]
    refine ⟨ascii '@', ((b :: rest).drop lead).take (more + 1 - lead), 1, ?_, ?_, ?_⟩
    · simp only [Token.written, Token.isIdent, hslice, hbytes]
      rfl
    · rw [hslice, hbytes]
      rfl
    · intro fresh cut hcut
      rw [List.length_take_of_le (identifier?_le hread).2]
      exact piece_sign hcut hread fresh
  · obtain rfl : lead = 0 := hlead.resolve_right fun h => hident h.2.1
    refine ⟨b, rest.take more, 0, ?_, hslice, ?_⟩
    · exact (if_neg (by simp [Token.isIdent, hident])).trans hslice
    · intro fresh' cut hcut
      rw [List.length_take_of_le hmore]
      exact piece_apart hcut h fresh'

/-- One step of the lexer reads one piece. -/
theorem run_cons_iff {s : State} :
    run s (b :: rest) = .ok (tokens, nullable) ↔
      ∃ p behind, piece s.fresh b rest = .ok p ∧
        run (s.advance p (b :: rest.take p.more)) (rest.drop p.more) = .ok (behind, nullable) ∧
        tokens = (s.token? p (b :: rest.take p.more)).toList ++ behind := by
  rw [run]
  cases hpiece : piece s.fresh b rest with
  | error f => simp
  | ok p =>
    cases hrun : run (s.advance p (b :: rest.take p.more)) (rest.drop p.more) with
    | error e => simp [hrun, bind, Except.bind]
    | ok r =>
      simp only [hrun, bind, Except.bind, pure, Except.pure, Except.ok.injEq, Prod.mk.injEq]
      constructor
      · rintro ⟨rfl, rfl⟩
        exact ⟨p, r.1, rfl, hrun, rfl⟩
      · rintro ⟨p', behind, rfl, hrun', rfl⟩
        obtain rfl := Except.ok.inj (hrun.symm.trans hrun')
        exact ⟨rfl, rfl⟩

/-- All tokens but the last one stand apart, and the last one stands at the end of the file. -/
theorem standsApart_run (bs : List UInt8) (s : State) (hdrop : source.drop s.offset = bs)
    (h : run s bs = .ok (tokens, nullable)) :
    ∃ (ts : List Token) (t : Token), tokens = ts ++ [t] ∧ t.reading source = finalReading ∧
      ∀ u ∈ ts, StandsApart source u := by
  -- along the pieces, of which only those that are tokens are listed
  induction s, bs using run.induct generalizing tokens with
  | case1 s =>
    rw [run] at h
    cases h
    exact ⟨[], _, rfl, by simp [Token.reading, slice_self, finalReading], by simp⟩
  | case2 s b rest f hpiece =>
    rw [run, hpiece] at h
    cases h
  | case3 s b rest p hpiece bs =>
    rename_i ih
    have hscan := scans_piece s.fresh b rest
    rw [hpiece] at hscan
    have hmore : p.more ≤ rest.length := more_le_of_piece hscan
    have hlength := length_bytes (b := b) hmore
    have hbehind : source.drop (s.offset + (b :: rest.take p.more).length) = rest.drop p.more := by
      rw [hlength, drop_behind hdrop]
    obtain ⟨p', behind, hpiece', hrun, rfl⟩ := run_cons_iff.mp h
    obtain rfl : p' = p := by simpa [hpiece] using hpiece'.symm
    obtain ⟨ts, t, rfl, ht, hts⟩ := ih hbehind hrun
    cases p' with
    | token kind lead more =>
      refine ⟨_ :: ts, t, rfl, ht, List.forall_mem_cons.mpr ⟨?_, hts⟩⟩
      rw [hlength]
      exact standsApart_of_piece hdrop hpiece s.doc
    | _ => exact ⟨ts, t, rfl, ht, hts⟩

/-- The space in front of the next token is skipped, so that what stands behind a token is read as
the tokens that are left. -/
theorem run_behind (target : List UInt8) (s : State)
    (hdrop : target.drop s.offset = behind source ts)
    (ih : ∀ s : State, target.drop s.offset = respaced source ts →
      ∃ again, run s (respaced source ts) = .ok (again, s.nullable) ∧
        again.map (Token.reading target) = ts.map (Token.reading source) ++ [finalReading]) :
    ∃ again, run s (behind source ts) = .ok (again, s.nullable) ∧
      again.map (Token.reading target) = ts.map (Token.reading source) ++ [finalReading] := by
  cases ts with
  | nil => exact ih s hdrop
  | cons u us =>
    have hspace : Skips s.fresh (ascii ' ') (respaced source (u :: us)) (.trivia 0) :=
      .blank (by decide)
    have hrest : target.drop (s.offset + 1) = respaced source (u :: us) := by
      rw [← List.drop_drop, hdrop]
      rfl
    obtain ⟨again, hrun, hagain⟩ := ih (s.advance (.trivia 0) [ascii ' ']) hrest
    exact ⟨again, run_cons_iff.mpr ⟨_, again, hspace.piece_eq, hrun, rfl⟩, hagain⟩

/-- A token that is written anew is read as before. -/
theorem StandsApart.reading_token? {target : List UInt8} {s : State} {ws cut : List UInt8}
    (ht : StandsApart source t) (hdrop : target.drop s.offset = b :: (ws ++ cut))
    (hslice : t.span.slice source = (b :: ws).drop lead) :
    (s.token? (.token t.kind lead ws.length) (b :: ws)).toList.map (Token.reading target) =
      [t.reading source] := by
  have hslice' : Span.slice ⟨s.offset + lead, s.offset + (ws.length + 1)⟩ target =
      t.span.slice source := by
    rw [slice_piece hdrop, List.take_left, hslice]
  have htext : Text.Utf8.text ((b :: ws).drop lead) = t.text := by
    rw [ht.text_eq, hslice]
  simp only [State.token?, Option.toList_some, List.map_singleton, Token.reading, htext,
    List.length_cons, hslice']

/-- Tokens that stand apart are read one by one, wherever in a text they are written anew. -/
theorem run_respaced (target : List UInt8) (hts : ∀ t ∈ ts, StandsApart source t) (s : State)
    (hdrop : target.drop s.offset = respaced source ts) :
    ∃ again, run s (respaced source ts) = .ok (again, s.nullable) ∧
      again.map (Token.reading target) = ts.map (Token.reading source) ++ [finalReading] := by
  induction ts generalizing s with
  | nil =>
    -- a token more in front: its piece is read, and what is behind it by hypothesis
    refine ⟨_, by rw [respaced, List.map_nil, List.intercalate_nil, run], ?_⟩
    simp [Token.reading, slice_self, finalReading]
  | cons t ts ih =>
    obtain ⟨ht, hts⟩ := List.forall_mem_cons.mp hts
    obtain ⟨b, ws, lead, hwritten, hslice, hpiece⟩ := ht.reads
    rw [respaced_cons, hwritten, List.cons_append] at hdrop ⊢
    let p : Piece := .token t.kind lead ws.length
    have hbehind : target.drop (s.advance p (b :: ws)).offset = behind source ts := by
      show target.drop (s.offset + (b :: ws).length) = behind source ts
      rw [← List.drop_drop, hdrop, ← List.cons_append, List.drop_left]
    obtain ⟨again, hrun, hagain⟩ := run_behind target _ hbehind (ih hts)
    have htake : (ws ++ behind source ts).take p.more = ws := List.take_left
    have hdrop' : (ws ++ behind source ts).drop p.more = behind source ts := List.drop_left
    refine ⟨_, run_cons_iff.mpr ⟨p, again, hpiece s.fresh _ (apart_behind source ts), ?_, rfl⟩, ?_⟩
    · rw [htake, hdrop']
      exact hrun
    · rw [htake, List.map_append, hagain]
      exact congrArg (· ++ _) (ht.reading_token? hdrop hslice)

/-- Tokens that stand apart are found again, one by one. -/
theorem relexes_of_standsApart (hts : ∀ t ∈ ts, StandsApart source t) : Relexes source ts := by
  have hbom : byteOrderMark.isPrefixOf (respaced source ts) = false := by
    rw [Bool.eq_false_iff]
    intro hbom
    obtain ⟨rest, hrest⟩ := List.isPrefixOf_iff_prefix.mp hbom
    cases ts with
    | nil => cases hrest
    | cons t ts =>
      obtain ⟨b, ws, lead, hwritten, -, hpiece⟩ := (hts t List.mem_cons_self).reads
      rw [respaced_cons, hwritten] at hrest
      have hb : 0xEF = b := (List.cons.inj hrest).1
      have hws : 0xBB :: 0xBF :: rest = ws ++ behind source ts := (List.cons.inj hrest).2
      have hread := hpiece true _ (apart_behind source ts)
      rw [← hb, ← hws] at hread
      exact not_piece_byteOrderMark hread
  obtain ⟨again, hrun, hagain⟩ := run_respaced (respaced source ts) hts {} rfl
  refine ⟨again, ?_, hagain⟩
  rw [CSharpAudit.lex, hbom]
  exact hrun

/-- The tokens of a text stand apart, and behind them is the end of the file. -/
theorem standsApart_lex (h : CSharpAudit.lex source = .ok (tokens, nullable)) :
    ∃ (ts : List Token) (t : Token), tokens = ts ++ [t] ∧ t.reading source = finalReading ∧
      ∀ u ∈ ts, StandsApart source u := by
  unfold CSharpAudit.lex at h
  split at h
  · exact standsApart_run (source.drop 3) { offset := 3, fresh := false } rfl h
  · exact standsApart_run source {} rfl h

end Lexer

/-- Lexing is stable: the tokens of an accepted text, written one after another with single spaces
between them and with a sign in front of each identifier, are read again as they were. A token
depends on its own bytes alone, so the same holds for any of the tokens in any order. -/
theorem relexing_stable {source : List UInt8} {tokens : List Token} {nullable : Bool}
    (h : lex source = .ok (tokens, nullable)) :
    (∃ again, lex (respaced source (tokens.filter (·.kind != .eof))) = .ok (again, false) ∧
      again.map (Token.reading (respaced source (tokens.filter (·.kind != .eof)))) =
        tokens.map (Token.reading source)) ∧
    (∀ ts, (∀ t ∈ ts, t ∈ tokens ∧ t.kind ≠ .eof) → Relexes source ts) ∧
    ∀ t ∈ tokens, t.text = Text.Utf8.text (t.span.slice source) := by
  -- The last token is the end of the file, and no other one is.
  obtain ⟨ts, t, rfl, ht, hts⟩ := Lexer.standsApart_lex h
  obtain ⟨hkind, htext, hslice⟩ : t.kind = .eof ∧ t.text = "" ∧ t.span.slice source = [] := by
    simpa [Token.reading, finalReading] using ht
  have hfilter : (ts ++ [t]).filter (·.kind != .eof) = ts := by
    rw [List.filter_append, List.filter_eq_self.mpr fun u hu => by simpa using (hts u hu).kind_ne,
      List.filter_cons_of_neg (by simp [hkind]), List.filter_nil, List.append_nil]
  refine ⟨?_, fun us hus => Lexer.relexes_of_standsApart fun u hu => ?_, fun u hu => ?_⟩
  · rw [hfilter, List.map_append, List.map_singleton, ht]
    exact Lexer.relexes_of_standsApart hts
  · obtain ⟨hmem, hne⟩ := hus u hu
    rcases List.mem_append.mp hmem with hmem | hmem
    · exact hts u hmem
    · exact absurd (List.mem_singleton.mp hmem ▸ hkind) hne
  · rcases List.mem_append.mp hu with hu | hu
    · exact (hts u hu).text_eq
    · obtain rfl := List.mem_singleton.mp hu
      rw [htext, hslice]
      simp [Text.Utf8.text, Text.Utf8.pieces]

/-- A text in which almost every token is cut off by the one behind it. -/
def crowdedText : List UInt8 :=
  "x=@class+$\"\x7ba[\"b\"]\x7d\"+@\"c\"\"d\"+\"\"\"e\"\"\"+0x1f.F()/1.5e3/.5f??1..2//f".toList.map
    Lexer.ascii

/-- The same tokens, set apart. -/
def spacedText : List UInt8 :=
  ("@x = @class + $\"\x7ba[\"b\"]\x7d\" + @\"c\"\"d\" + \"\"\"e\"\"\" + 0x1f . @F ( ) " ++
    "/ 1.5e3 / .5f ?? 1 .. 2").toList.map Lexer.ascii

theorem crowdedText_relexed :
    (∃ again, lex spacedText = .ok (again, false) ∧
      again.map (Token.reading spacedText) =
        (lexed crowdedText).1.map (Token.reading crowdedText)) ∧
    ∀ t ∈ (lexed crowdedText).1, t.kind ≠ .eof → Relexes crowdedText [t] := by
  obtain ⟨hok, hspaced⟩ : (lex crowdedText).isOk = true ∧
      respaced crowdedText ((lexed crowdedText).1.filter (·.kind != .eof)) = spacedText := by
    rw [show crowdedText = _ from Lexer.ascii_ofList _,
      show spacedText = _ from Lexer.ascii_ofList_append _ _]
    decide +kernel
  obtain ⟨hall, hsome, -⟩ := relexing_stable (lex_eq_lexed hok)
  rw [hspaced] at hall
  refine ⟨hall, fun t ht hkind => hsome [t] fun u hu => ?_⟩
  obtain rfl := List.mem_singleton.mp hu
  exact ⟨ht, hkind⟩

end CSharpAudit
