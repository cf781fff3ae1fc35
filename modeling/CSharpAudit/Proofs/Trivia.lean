import CSharpAudit.Proofs.Scanning

/-!
# White space and comments

What the lexer skips is found from its own bytes and the one behind it, so a text that is cut off
behind it is skipped in the same way. A text that is skipped as a whole holds no tokens.

## Main definitions

* `Lexer.Skips` — the pieces that are no tokens
* `Lexer.Blank` — a text without tokens

## Main results

* `Lexer.scans_piece` — the piece at the head of a text is skipped or is a token
* `Lexer.Skips.cut` — a piece is skipped whatever the text behind it is cut down to
* `Lexer.Blank.lex` — a blank text lexes to nothing but the end of the file
-/

namespace CSharpAudit.Lexer

/-- The pieces at the head of `b :: rest` that are no tokens. `fresh` says that only blanks precede
on the line. -/
inductive Skips : Bool → UInt8 → List UInt8 → Piece → Prop
  | blank {fresh : Bool} {b : UInt8} {rest : List UInt8}
      (h : isOneOf " \t\r\n\x0c\x0b" b = true) : Skips fresh b rest (.trivia 0)
  | line {fresh : Bool} {rest : List UInt8} :
      Skips fresh (ascii '/') (ascii '/' :: rest) (lineComment (ascii '/' :: ascii '/' :: rest))
  | comment {fresh : Bool} {rest : List UInt8} {n : Nat}
      (h : indexOf? [ascii '*', ascii '/'] rest = some n) :
      Skips fresh (ascii '/') (ascii '*' :: rest) (.trivia (n + 3))
  | directive {rest : List UInt8} : Skips true (ascii '#') rest (directive rest)
  | wide {fresh : Bool} {b : UInt8} {rest : List UInt8} {c : Char} {n : Nat} (hb : 0x80 ≤ b)
      (h : Text.Utf8.next b rest = (.char c, n)) (hc : Text.isBlank c = true) :
      Skips fresh b rest (.trivia n)

variable {fresh : Bool} {b : UInt8} {rest bs : List UInt8} {p : Piece} {n : Nat}

/-- A text starts with two marks if its first two bytes are these. -/
theorem startsWith_two {s : String} {c d : Char} (hs : s.toList = [c, d]) :
    startsWith s (b :: rest) = true ↔ b = ascii c ∧ ∃ r, rest = ascii d :: r := by
  rw [startsWith, hs]
  cases rest with
  | nil => simp
  | cons e r =>
    constructor
    · intro h
      simp at h
      exact ⟨h.1.symm, r, by rw [h.2]⟩
    · rintro ⟨rfl, r, h⟩
      simp [(List.cons.inj h).1]

theorem lt_of_isOneOf {chars : String} (hascii : chars.toList.all (·.toNat < 0x80) = true)
    (h : isOneOf chars b = true) : b < 0x80 := by
  obtain ⟨c, hc, heq⟩ := List.any_eq_true.mp h
  obtain rfl := beq_iff_eq.mp heq
  have := of_decide_eq_true (List.all_eq_true.mp hascii c hc)
  simp only [ascii, UInt8.lt_iff_toNat_lt, UInt8.reduceToNat, Nat.toUInt8_eq, UInt8.toNat_ofNat']
  omega

/-- The first byte decides which kinds of trivia there may be. -/
theorem trivia?_of_not_slash (hb : b ≠ ascii '/') (hblank : isOneOf " \t\r\n\x0c\x0b" b = false) :
    trivia? fresh b rest =
      if b == ascii '#' && fresh then .ok (some (directive rest))
      else if b ≥ 0x80 then
        .ok (if Text.isBlank (Text.Utf8.next b rest).1.toChar then
          some (.trivia (Text.Utf8.next b rest).2) else none)
      else .ok none := by
  have hline : startsWith "//" (b :: rest) = false := by
    rw [Bool.eq_false_iff]
    exact fun h => hb ((startsWith_two rfl).mp h).1
  have hcomment : startsWith "/*" (b :: rest) = false := by
    rw [Bool.eq_false_iff]
    exact fun h => hb ((startsWith_two rfl).mp h).1
  simp [trivia?, hline, hcomment, hblank]

/-- A piece that is no token is skipped. -/
theorem Skips.trivia?_eq (h : Skips fresh b rest p) : trivia? fresh b rest = .ok (some p) := by
  cases h with
  | blank h => simp [trivia?, h]
  | @line _ r =>
    have hline : startsWith "//" (ascii '/' :: ascii '/' :: r) = true :=
      (startsWith_two rfl).mpr ⟨rfl, r, rfl⟩
    rw [trivia?, if_neg (by decide), if_pos hline]
  | @comment _ r n h =>
    have hline : ¬startsWith "//" (ascii '/' :: ascii '*' :: r) = true := by
      rw [startsWith_two (c := '/') (d := '/') rfl]
      simp [ascii]
    have hcomment : startsWith "/*" (ascii '/' :: ascii '*' :: r) = true :=
      (startsWith_two rfl).mpr ⟨rfl, r, rfl⟩
    rw [trivia?, if_neg (by decide), if_neg hline, if_pos hcomment]
    simp [h]
  | directive => rw [trivia?_of_not_slash (by decide) (by decide), if_pos (by decide)]
  | wide hb h hc =>
    -- None of the signs that start trivia is a character of several bytes.
    have hslash : b ≠ ascii '/' := by rintro rfl; exact absurd hb (by decide)
    have hsign : (b == ascii '#') = false := by
      rw [beq_eq_false_iff_ne]
      rintro rfl
      exact absurd hb (by decide)
    have hblank : isOneOf " \t\r\n\x0c\x0b" b = false := by
      rw [Bool.eq_false_iff]
      exact fun h => absurd hb (UInt8.not_le.mpr (lt_of_isOneOf (by decide) h))
    rw [trivia?_of_not_slash hslash hblank, hsign]
    simp [h, hc, hb, Text.Utf8.Piece.toChar]

/-- What is skipped is a piece that is no token. -/
theorem skips_of_trivia? (h : trivia? fresh b rest = .ok (some p)) : Skips fresh b rest p := by
  unfold trivia? at h
  -- the tests in the order in which the lexer makes them
  split at h
  · rename_i hblank
    cases h
    exact .blank hblank
  split at h
  · rename_i hline
    obtain ⟨rfl, r, rfl⟩ := (startsWith_two rfl).mp hline
    cases h
    exact .line
  split at h
  · rename_i hcomment
    obtain ⟨rfl, r, rfl⟩ := (startsWith_two rfl).mp hcomment
    split at h
    · cases h
    · rename_i n hn
      cases h
      exact .comment hn
  split at h
  · rename_i hsign
    obtain ⟨hb, rfl⟩ := Bool.and_eq_true_iff.mp hsign
    obtain rfl := beq_iff_eq.mp hb
    cases h
    exact .directive
  split at h
  · rename_i hb
    cases hnext : Text.Utf8.next b rest with
    | mk piece n =>
      simp only [hnext, Except.ok.injEq, Option.ite_none_right_eq_some, Option.some.injEq] at h
      obtain ⟨hc, rfl⟩ := h
      -- A stray byte is read as the replacement character, which is not blank.
      cases piece with
      | char c => exact .wide hb hnext hc
      | stray =>
        have hc : Text.isBlank Text.Utf8.replacement = true := hc
        exact absurd hc (by decide +kernel)
  · cases h

/-- A comment that is not closed is a fault inside the text. -/
theorem trivia?_error {f : Fault} (h : trivia? fresh b rest = .error f) :
    f.Inside rest.length := by
  unfold trivia? at h
  repeat' split at h
  all_goals cases h
  exact ⟨Nat.zero_le _, rfl⟩

/-- The piece at the head of a text is skipped, or it is a token that lies inside the text; a fault
is found at a byte of the text. -/
theorem scans_piece (fresh : Bool) (b : UInt8) (rest : List UInt8) :
    match piece fresh b rest with
    | .ok p => Skips fresh b rest p ∨ p.IsToken b rest
    | .error f => f.Inside rest.length := by
  unfold piece
  cases htrivia : trivia? fresh b rest with
  | error f => exact trivia?_error htrivia
  | ok o =>
    cases o with
    | some p => exact .inl (skips_of_trivia? htrivia)
    | none =>
      -- what is not skipped is a word, or it starts with a mark, or it is a plain token
      simp only [bind, Except.bind]
      cases hident : identifier? (b :: rest) with
      | some n =>
        have hle := (identifier?_le hident).2
        rw [List.length_cons] at hle
        refine .inr ⟨?_, by omega, .inl rfl⟩
        split <;> simp
      | none =>
        have hmarked := scans_marked? b rest
        have hplain := scans_plain b rest
        cases hm : marked? b rest with
        | error f =>
          rw [hm] at hmarked
          exact hmarked
        | ok o =>
          rw [hm] at hmarked
          cases o with
          | some p => exact .inr hmarked
          | none =>
            show match plain b rest with
              | .ok p => _
              | .error f => _
            cases hp : plain b rest with
            | error f =>
              rw [hp] at hplain
              exact hplain
            | ok p =>
              rw [hp] at hplain
              exact .inr hplain

/-- A piece that is no token is what the lexer reads. -/
theorem Skips.piece_eq (h : Skips fresh b rest p) : piece fresh b rest = .ok p := by
  simp [piece, h.trivia?_eq, bind, Except.bind]
  rfl

/-! ### Cutting off what stands behind -/

/-- What a scan passes over is the front of the text. -/
theorem take_length_takeWhile (q : UInt8 → Bool) (bs : List UInt8) :
    bs.take (bs.takeWhile q).length = bs.takeWhile q :=
  (List.prefix_iff_eq_take.mp (List.takeWhile_prefix q)).symm

theorem drop_length_takeWhile (q : UInt8 → Bool) (bs : List UInt8) :
    bs.drop (bs.takeWhile q).length = bs.dropWhile q := by
  have h := congrArg (List.drop (bs.takeWhile q).length)
    (List.takeWhile_append_dropWhile (p := q) (l := bs))
  rw [List.drop_left] at h
  exact h.symm

theorem head?_dropWhile {q : UInt8 → Bool} {bs : List UInt8} {d : UInt8}
    (h : (bs.dropWhile q).head? = some d) : q d = false := by
  have := List.head?_dropWhile_not q bs
  rwa [h] at this

/-- A text may be cut off behind the place where a scan stops. -/
theorem takeWhile_cut {q : UInt8 → Bool} {cut : List UInt8} (h : cut <+: bs.dropWhile q) :
    (bs.takeWhile q ++ cut).takeWhile q = bs.takeWhile q := by
  have hcut : cut.takeWhile q = [] := by
    obtain ⟨rest, hrest⟩ := h
    cases cut with
    | nil => rfl
    | cons d cut =>
      have hhead : (bs.dropWhile q).head? = some d := by
        rw [← hrest]
        rfl
      have hd : q d = false := head?_dropWhile hhead
      simp [hd]
  have hall : ∀ d ∈ bs.takeWhile q, q d = true := List.all_eq_true.mp List.all_takeWhile
  rw [List.takeWhile_append_of_pos hall, hcut, List.append_nil]

theorem prefix_of_indexOf? {needle : List UInt8} (h : indexOf? needle bs = some n) :
    needle <+: bs.drop n := by
  induction bs generalizing n with
  | nil =>
    obtain ⟨rfl, rfl⟩ : needle = [] ∧ 0 = n := by simpa [indexOf?] using h
    exact List.nil_prefix
  | cons b rest ih =>
    rw [indexOf?] at h
    split at h
    · rename_i hprefix
      obtain rfl := Option.some.inj h
      exact List.isPrefixOf_iff_prefix.mp hprefix
    · obtain ⟨m, hm, rfl⟩ := Option.map_eq_some_iff.mp h
      exact ih hm

/-- A mark that is found stands where it is found. -/
theorem take_of_indexOf? {needle : List UInt8} (h : indexOf? needle bs = some n) :
    bs.take (n + needle.length) = bs.take n ++ needle := by
  rw [List.take_add, ← List.prefix_iff_eq_take.mp (prefix_of_indexOf? h)]

theorem indexOf?_append (needle cut : List UInt8) : indexOf? needle (needle ++ cut) = some 0 := by
  cases needle with
  | nil => cases cut <;> simp [indexOf?]
  | cons d needle =>
    rw [List.cons_append, indexOf?, if_pos]
    exact List.isPrefixOf_iff_prefix.mpr (List.prefix_append (d :: needle) cut)

/-- A mark is found at the same place, whatever stands behind it. -/
theorem indexOf?_cut {needle : List UInt8} (h : indexOf? needle bs = some n) (cut : List UInt8) :
    indexOf? needle (bs.take (n + needle.length) ++ cut) = some n := by
  induction bs generalizing n with
  | nil =>
    obtain ⟨rfl, rfl⟩ : needle = [] ∧ 0 = n := by simpa [indexOf?] using h
    exact indexOf?_append [] cut
  | cons b rest ih =>
    have hrest := h
    rw [indexOf?] at hrest
    split at hrest
    · rename_i hprefix
      obtain rfl := Option.some.inj hrest
      rw [take_of_indexOf? h]
      exact indexOf?_append needle cut
    · rename_i hprefix
      obtain ⟨m, hm, rfl⟩ := Option.map_eq_some_iff.mp hrest
      have hle := indexOf?_le hm
      rw [Nat.add_right_comm, List.take_succ_cons, List.cons_append, indexOf?, if_neg, ih hm]
      · rfl
      -- the needle is not longer than what is kept, so it would begin the whole text as well
      · intro hcut
        refine hprefix (List.isPrefixOf_iff_prefix.mpr ?_)
        have hshort : needle <+: b :: rest.take (m + needle.length) :=
          List.prefix_of_prefix_length_le (List.isPrefixOf_iff_prefix.mp hcut)
            (List.prefix_append (b :: rest.take (m + needle.length)) cut) (by
              simp only [List.length_cons, List.length_take]
              omega)
        exact hshort.trans ((List.prefix_cons_inj b).mpr (List.take_prefix _ _))

theorem takeWhile_slashes (bs : List UInt8) :
    (ascii '/' :: ascii '/' :: bs).takeWhile (· != newline) =
      ascii '/' :: ascii '/' :: bs.takeWhile (· != newline) := rfl

theorem lineComment_congr {bs' : List UInt8}
    (h : bs.takeWhile (· != newline) = bs'.takeWhile (· != newline)) :
    lineComment bs = lineComment bs' := by
  simp only [lineComment, h]

/-- A line comment goes up to the end of the line. -/
theorem more_lineComment (bs : List UInt8) :
    (lineComment (ascii '/' :: ascii '/' :: bs)).more =
      (bs.takeWhile (· != newline)).length + 1 := by
  rw [lineComment, apply_ite Piece.more]
  exact ite_self _

/-- So does a directive. -/
theorem more_directive (bs : List UInt8) :
    (directive bs).more = (bs.takeWhile (· != newline)).length := rfl

/-- A piece is skipped whatever the text behind it is cut down to. -/
theorem Skips.cut (h : Skips fresh b rest p) {cut : List UInt8} (hcut : cut <+: rest.drop p.more) :
    Skips fresh b (rest.take p.more ++ cut) p := by
  cases h with
  | blank h => exact .blank h
  | @line _ r =>
    -- A comment ends at the line, and its bytes up to there are all kept.
    rw [more_lineComment, List.drop_succ_cons, drop_length_takeWhile] at hcut
    have hline : lineComment (ascii '/' :: ascii '/' :: r) =
        lineComment (ascii '/' :: ascii '/' :: (r.takeWhile (· != newline) ++ cut)) :=
      lineComment_congr (by rw [takeWhile_slashes, takeWhile_slashes, takeWhile_cut hcut])
    rw [more_lineComment, List.take_succ_cons, take_length_takeWhile, List.cons_append, hline]
    exact .line
  | comment h => exact .comment (indexOf?_cut h cut)
  | directive =>
    rw [more_directive, drop_length_takeWhile] at hcut
    have hline : Lexer.directive rest =
        Lexer.directive (rest.takeWhile (· != newline) ++ cut) := by
      simp only [Lexer.directive, takeWhile_cut hcut]
    rw [more_directive, take_length_takeWhile, hline]
    exact .directive
  | wide hb h hc => exact .wide hb (Text.Utf8.next_append h cut) hc

/-- What is skipped lies inside the text. -/
theorem Skips.more_le (h : Skips fresh b rest p) : p.more ≤ rest.length := by
  cases h with
  | blank => exact Nat.zero_le _
  | @line _ r =>
    rw [more_lineComment, List.length_cons]
    exact Nat.succ_le_succ (countWhile_le _ r)
  | @comment _ r n h => exact Nat.succ_le_succ (indexOf?_le h)
  | directive => exact countWhile_le _ rest
  | @wide _ _ _ c n hb h hc =>
    have := Text.Utf8.next_snd_le b rest
    rwa [h] at this

/-- What is skipped on a line that is not fresh is skipped on a fresh one. -/
theorem Skips.onFresh (h : Skips fresh b rest p) : Skips true b rest p := by
  cases h with
  | blank h => exact .blank h
  | line => exact .line
  | comment h => exact .comment h
  | directive => exact .directive
  | wide hb h hc => exact .wide hb h hc

/-- What is skipped yields no token. -/
theorem Skips.token?_eq (h : Skips fresh b rest p) (s : State) (bs : List UInt8) :
    s.token? p bs = none := by
  cases h with
  | line =>
    unfold lineComment
    dsimp only
    split <;> rfl
  | _ => rfl

/-- A byte-order mark is not skipped as white space. -/
theorem not_skips_byteOrderMark : ¬Skips fresh 0xEF (0xBB :: 0xBF :: rest) p := by
  intro h
  have hblank : Text.isBlank '\uFEFF' = false := by decide +kernel
  have hnext : Text.Utf8.next 0xEF (0xBB :: 0xBF :: rest) = (.char '\uFEFF', 2) := rfl
  have htrivia := h.trivia?_eq
  rw [trivia?_of_not_slash (by decide) (by decide), hnext, if_neg (by simp [ascii])] at htrivia
  simp [Text.Utf8.Piece.toChar, hblank] at htrivia

/-- Only a comment or a directive up to the end of its line may end in an at sign. -/
theorem Skips.newline_of_at (h : Skips fresh b rest p)
    (hat : (b :: rest.take p.more).getLast? = some (ascii '@')) {d : UInt8}
    (hd : (rest.drop p.more).head? = some d) : d = newline := by
  -- Only what ends with its line may have an at sign in front of that end.
  cases h with
  | blank h =>
    obtain rfl : b = ascii '@' := by simpa [Piece.more] using hat
    exact absurd h (by decide)
  | @line _ r =>
    rw [more_lineComment, List.drop_succ_cons, drop_length_takeWhile] at hd
    simpa using head?_dropWhile hd
  | @comment _ r n h =>
    have htake : r.take (n + 2) = r.take n ++ [ascii '*', ascii '/'] := take_of_indexOf? h
    have hlast : ascii '/' :: ascii '*' :: (r.take n ++ [ascii '*', ascii '/']) =
        (ascii '/' :: ascii '*' :: r.take n ++ [ascii '*']) ++ [ascii '/'] := by simp
    rw [Piece.more, List.take_succ_cons, htake, hlast, List.getLast?_concat] at hat
    exact absurd (Option.some.inj hat) (by decide)
  | directive =>
    rw [more_directive, drop_length_takeWhile] at hd
    simpa using head?_dropWhile hd
  | @wide _ _ _ c n hb h hc =>
    have hat := List.mem_of_getLast? hat
    have hge : 0x80 ≤ ascii '@' := by
      rcases List.mem_cons.mp hat with hat | hat
      · rwa [hat]
      · exact Text.Utf8.le_of_mem_take_next h hat
    exact absurd hge (by decide)

/-! ### Texts without tokens -/

/-- A text that is skipped as a whole. -/
inductive Blank : Bool → List UInt8 → Prop
  | nil {fresh : Bool} : Blank fresh []
  | cons {fresh : Bool} {b : UInt8} {rest : List UInt8} {p : Piece} (h : Skips fresh b rest p)
      (hrest : Blank ((b :: rest.take p.more).foldl freshAfter fresh) (rest.drop p.more)) :
      Blank fresh (b :: rest)

theorem freshAfter_mono {fresh' : Bool} (h : fresh = true → fresh' = true)
    (hb : freshAfter fresh b = true) : freshAfter fresh' b = true := by
  unfold freshAfter at hb ⊢
  split
  · rfl
  · simp_all

/-- A line that is fresh already is fresh behind whatever leaves another one fresh. -/
theorem foldl_freshAfter_mono {fresh' : Bool} (h : fresh = true → fresh' = true) :
    bs.foldl freshAfter fresh = true → bs.foldl freshAfter fresh' = true := by
  induction bs generalizing fresh fresh' with
  | nil => exact h
  | cons b bs ih => exact ih (freshAfter_mono h)

/-- A blank text is also blank on a line that is fresher. -/
theorem Blank.mono {fresh' : Bool} (h : Blank fresh bs) (hfresh : fresh = true → fresh' = true) :
    Blank fresh' bs := by
  induction h generalizing fresh' with
  | nil => exact .nil
  | @cons fresh b rest p h _ ih =>
    refine .cons ?_ (ih (foldl_freshAfter_mono hfresh))
    cases fresh' with
    | true => exact h.onFresh
    | false =>
      obtain rfl : fresh = false := by simpa using hfresh
      exact h

/-- A blank text yields the end of the file alone. -/
theorem Blank.run_eq {s : State} (h : Blank s.fresh bs) :
    ∃ t nullable, run s bs = .ok ([t], nullable) ∧ t.kind = .eof := by
  generalize hfresh : s.fresh = fresh at h
  induction h generalizing s with
  | nil => exact ⟨_, _, by rw [run], rfl⟩
  | @cons _ b rest p h hrest ih =>
    subst hfresh
    obtain ⟨t, nullable, hrun, ht⟩ := ih (s := s.advance p (b :: rest.take p.more)) rfl
    refine ⟨t, nullable, ?_, ht⟩
    rw [run, h.piece_eq]
    simp [hrun, h.token?_eq, bind, Except.bind]
    rfl

/-- No blank text begins with the mark. -/
theorem Blank.not_byteOrderMark (h : Blank fresh bs) : byteOrderMark.isPrefixOf bs = false := by
  rw [Bool.eq_false_iff]
  intro hbom
  obtain ⟨rest, rfl⟩ := List.isPrefixOf_iff_prefix.mp hbom
  cases h with
  | cons h hrest => exact not_skips_byteOrderMark h

/-- A text that lexes to nothing but the end of the file. -/
def LexesToNothing (bs : List UInt8) : Prop :=
  ∃ t nullable, lex bs = .ok ([t], nullable) ∧ t.kind = .eof

/-- A blank text lexes to nothing but the end of the file. -/
theorem Blank.lex (h : Blank fresh bs) : LexesToNothing bs := by
  have hlex : CSharpAudit.lex bs = run {} bs := by
    rw [CSharpAudit.lex, h.not_byteOrderMark]
    rfl
  rw [LexesToNothing, hlex]
  exact Blank.run_eq (s := {}) (h.mono fun _ => rfl)

/-- A byte-order mark may stand in front. -/
theorem Blank.lex_byteOrderMark (h : Blank false bs) : LexesToNothing (byteOrderMark ++ bs) := by
  have hlex : CSharpAudit.lex (byteOrderMark ++ bs) = run { offset := 3, fresh := false } bs := by
    rw [CSharpAudit.lex, if_pos (List.isPrefixOf_iff_prefix.mpr (List.prefix_append _ _))]
    rfl
  rw [LexesToNothing, hlex]
  exact Blank.run_eq (s := { offset := 3, fresh := false }) h

end CSharpAudit.Lexer
