import CSharpAudit.Proofs.Trivia

/-!
# The look-ahead of the scanners

A scanner looks one or two bytes behind what it reads: for a doubled mark, for the digit behind a
point, for a longer punctuator. If nothing but a space stands there, it reads what it read before.
A literal that is closed by its own mark does not look further at all.

## Main definitions

* `Lexer.Apart` — a text that is empty or starts with a space

## Main results

* `Lexer.startsWith_apart` — a text starts with the same marks when a space stands behind it
* `Lexer.identifier?_apart`, `Lexer.number_apart`, `Lexer.verbatim?_apart`, … — each scanner reads
  alike what it read, with a space behind it
* `Lexer.quoted_cut`, `Lexer.nested?_cut`, `Lexer.raw?_apart` — literals with a closing mark
-/

namespace CSharpAudit.Lexer

/-- What may stand behind a token that stands apart: nothing, or a space. -/
inductive Apart : List UInt8 → Prop
  | nil : Apart []
  | space (behind : List UInt8) : Apart (ascii ' ' :: behind)

variable {bs rest cut needle : List UInt8} {b mark : UInt8} {n k pos depth : Nat}
  {isVerbatim : Bool} {q : UInt8 → Bool}

theorem Apart.takeWhile_eq (h : Apart cut) (hq : q (ascii ' ') = false) : cut.takeWhile q = [] := by
  cases h with
  | nil => rfl
  | space behind => exact List.takeWhile_cons_of_neg (by simp [hq])

/-- A run of bytes ends where it did when a space stands behind it. -/
theorem takeWhile_apart (hcut : Apart cut) (hq : q (ascii ' ') = false)
    (hle : countWhile q bs ≤ n) : (bs.take n ++ cut).takeWhile q = bs.takeWhile q := by
  induction bs generalizing n with
  | nil => simpa using hcut.takeWhile_eq hq
  | cons b bs ih =>
    cases hb : q b with
    | false =>
      cases n with
      | zero => simpa [hb] using hcut.takeWhile_eq hq
      | succ n => simp [hb]
    | true =>
      have hle : countWhile q bs + 1 ≤ n := by simpa [countWhile, hb] using hle
      obtain ⟨m, rfl⟩ : ∃ m, n = m + 1 := ⟨n - 1, by omega⟩
      rw [List.take_succ_cons, List.cons_append, List.takeWhile_cons_of_pos hb, ih (by omega),
        List.takeWhile_cons_of_pos hb]

theorem countWhile_apart (hcut : Apart cut) (hq : q (ascii ' ') = false)
    (hle : countWhile q bs ≤ n) : countWhile q (bs.take n ++ cut) = countWhile q bs :=
  congrArg List.length (takeWhile_apart hcut hq hle)

theorem drop_take_append (hk : k ≤ n) (hlength : k ≤ bs.length) (cut : List UInt8) :
    (bs.take n ++ cut).drop k = (bs.drop k).take (n - k) ++ cut := by
  rw [List.drop_append_of_le_length (by rw [List.length_take]; omega), List.drop_take]

theorem take_append_of_le (hn : n ≤ k) :
    bs.take k ++ cut = bs.take n ++ ((bs.drop n).take (k - n) ++ cut) := by
  rw [← List.append_assoc, ← List.take_add, Nat.add_sub_cancel' hn]

/-- A mark without a space is found neither more nor less often. -/
theorem prefix_apart_iff (hcut : Apart cut) (hneedle : ascii ' ' ∉ needle)
    (hle : needle <+: bs → needle.length ≤ n) : needle <+: bs.take n ++ cut ↔ needle <+: bs := by
  induction needle generalizing bs n with
  | nil => exact iff_of_true List.nil_prefix List.nil_prefix
  | cons d needle ih =>
    have hd : d ≠ ascii ' ' := fun h => hneedle (h ▸ List.mem_cons_self)
    have hcut' : ¬d :: needle <+: cut := by
      cases hcut with
      | nil => simp
      | space behind => exact fun h => hd (List.cons_prefix_cons.mp h).1
    cases bs with
    | nil => simpa using hcut'
    | cons b bs =>
      cases n with
      | zero => exact iff_of_false hcut' fun h => absurd (hle h) (by simp)
      | succ n =>
        rw [List.take_succ_cons, List.cons_append, List.cons_prefix_cons, List.cons_prefix_cons]
        have hneedle : ascii ' ' ∉ needle := fun h => hneedle (List.mem_cons_of_mem d h)
        refine and_congr_right fun hdb => ih hneedle fun h => ?_
        exact Nat.le_of_succ_le_succ (hle (List.cons_prefix_cons.mpr ⟨hdb, h⟩))

/-- A space behind a text takes no part in any mark the text starts with. -/
theorem startsWith_apart {chars : String} (hcut : Apart cut)
    (hchars : ascii ' ' ∉ chars.toList.map ascii)
    (hle : startsWith chars bs = true → chars.length ≤ n) :
    startsWith chars (bs.take n ++ cut) = startsWith chars bs := by
  rw [Bool.eq_iff_iff, startsWith, startsWith, List.isPrefixOf_iff_prefix,
    List.isPrefixOf_iff_prefix]
  refine prefix_apart_iff hcut hchars fun h => ?_
  rw [List.length_map, String.length_toList]
  exact hle (List.isPrefixOf_iff_prefix.mpr h)

/-! ### Identifiers -/

/-- A table is looked through as a list, which is much faster than as an array. -/
theorem contains_eq_any (s : Text.CharSet) (c : Char) :
    s.contains c = s.ranges.toList.any fun (lo, hi) => lo ≤ c.toNat && c.toNat ≤ hi :=
  Array.any_toList.symm

theorem isIdentPart_replacement : isIdentPart Text.Utf8.replacement = false := by
  simp only [isIdentPart, Text.isLetter, Text.isDecimalDigit, Text.isNonspacingMark,
    Text.isConnector, contains_eq_any]
  decide +kernel

/-- What may start an identifier may be inside of it. -/
theorem isIdentPart_of_isIdentStart {c : Char} (h : isIdentStart c = true) :
    isIdentPart c = true := by
  unfold isIdentStart at h
  unfold isIdentPart
  rw [h]
  rfl

theorem Apart.identTail_eq (h : Apart cut) : identTail cut = 0 := by
  cases h with
  | nil => rw [identTail]
  | space behind =>
    have hpart : isIdentPart (Char.ofNat (ascii ' ').toNat) = false := by decide +kernel
    rw [identTail, Text.Utf8.next_ascii (by decide)]
    exact if_neg (by simp [Text.Utf8.Piece.toChar, hpart])

/-- A character is decoded from its own bytes. -/
theorem next_cut {c : Char} (h : Text.Utf8.next b rest = (.char c, n)) (hn : n ≤ k)
    (cut : List UInt8) : Text.Utf8.next b (rest.take k ++ cut) = (.char c, n) := by
  rw [take_append_of_le hn]
  exact Text.Utf8.next_append h _

/-- The rest of an identifier ends at a space. -/
theorem identTail_apart (hcut : Apart cut) (bs : List UInt8) :
    identTail (bs.take (identTail bs) ++ cut) = identTail bs := by
  fun_induction identTail bs with
  | case1 => exact hcut.identTail_eq
  | case2 b rest piece more hnext hpart ih =>
    cases piece with
    | stray d => simp [Text.Utf8.Piece.toChar, isIdentPart_replacement] at hpart
    | char c =>
      have hmore : more ≤ rest.length := by simpa [hnext] using Text.Utf8.next_snd_le b rest
      rw [Nat.add_right_comm, List.take_succ_cons, List.cons_append, identTail,
        next_cut hnext (Nat.le_add_right _ _)]
      dsimp only
      rw [if_pos hpart, drop_take_append (Nat.le_add_right _ _) hmore, Nat.add_sub_cancel_left, ih,
        Nat.add_right_comm]
  | case3 b rest piece more hnext hpart => exact hcut.identTail_eq

/-- An identifier starts with a character that is written as UTF-8. -/
theorem identifier?_cons (h : identifier? (b :: rest) = some n) :
    ∃ c k, Text.Utf8.next b rest = (.char c, k) ∧ isIdentStart c = true ∧
      n = k + 1 + identTail (rest.drop k) := by
  cases hnext : Text.Utf8.next b rest with
  | mk piece k =>
    simp only [identifier?, hnext, Option.ite_none_right_eq_some, Option.some.injEq] at h
    obtain ⟨hstart, rfl⟩ := h
    cases piece with
    | stray d =>
      have hpart := isIdentPart_of_isIdentStart hstart
      simp [Text.Utf8.Piece.toChar, isIdentPart_replacement] at hpart
    | char c => exact ⟨c, k, rfl, hstart, rfl⟩

/-- An identifier is read alike with a space behind it. -/
theorem identifier?_apart (hcut : Apart cut) (h : identifier? bs = some n) :
    identifier? (bs.take n ++ cut) = some n := by
  cases bs with
  | nil => cases h
  | cons b rest =>
    obtain ⟨c, k, hnext, hstart, rfl⟩ := identifier?_cons h
    have hk : k ≤ rest.length := by simpa [hnext] using Text.Utf8.next_snd_le b rest
    rw [Nat.add_right_comm, List.take_succ_cons, List.cons_append, identifier?,
      next_cut hnext (Nat.le_add_right _ _)]
    have hstart : isIdentStart (Text.Utf8.Piece.char c).toChar = true := hstart
    dsimp only
    rw [if_pos hstart, drop_take_append (Nat.le_add_right _ _) hk, Nat.add_sub_cancel_left,
      identTail_apart hcut, Nat.add_right_comm]

/-! ### Numbers -/

/-- A space behind a text does not change whether it starts with a byte of some class. -/
theorem head?_apart (hcut : Apart cut) (hq : q (ascii ' ') = false)
    (hle : (bs.head?.map q).getD false = true → 0 < n) :
    ((bs.take n ++ cut).head?.map q).getD false = (bs.head?.map q).getD false := by
  have hhead : (cut.head?.map q).getD false = false := by
    cases hcut with
    | nil => rfl
    | space behind => exact hq
  cases bs with
  | nil => simpa using hhead
  | cons b bs =>
    cases n with
    | zero =>
      rw [Bool.eq_false_iff.mpr fun h => absurd (hle h) (Nat.lt_irrefl 0)]
      exact hhead
    | succ n => rfl

theorem fraction_cons (point : UInt8) (rest : List UInt8) :
    fraction (point :: rest) =
      if point == ascii '.' && (rest.head?.map isDigit).getD false then
        1 + countWhile isDigitOrBar rest
      else 0 := by
  cases rest with
  | nil => simp [fraction]
  | cons d rest => rfl

/-- A fraction is read alike with a space behind it. -/
theorem fraction_apart (hcut : Apart cut) (hle : fraction bs ≤ n) :
    fraction (bs.take n ++ cut) = fraction bs := by
  -- Neither the end nor a space starts a fraction.
  have hnone : fraction cut = 0 := by
    cases hcut with
    | nil => rfl
    | space behind => rw [fraction_cons, if_neg (by simp [ascii])]
  cases bs with
  | nil => simpa [fraction] using hnone
  | cons point rest =>
    cases n with
    | zero => rw [Nat.le_zero.mp hle]; exact hnone
    | succ n =>
      rw [fraction_cons] at hle
      rw [List.take_succ_cons, List.cons_append, fraction_cons, fraction_cons]
      by_cases hpoint : point = ascii '.'
      -- A fraction has a digit behind its point, and all its digits are kept.
      · have hdigit (h : (rest.head?.map isDigit).getD false = true) :
            countWhile isDigitOrBar rest ≤ n ∧ 0 < n := by
          rw [if_pos (by simp [hpoint, h])] at hle
          cases rest with
          | nil => simp at h
          | cons d rest =>
            have hd : isDigitOrBar d = true := by simp_all [isDigitOrBar]
            have hpos : 0 < countWhile isDigitOrBar (d :: rest) := by simp [countWhile, hd]
            omega
        rw [head?_apart hcut (by decide) fun h => (hdigit h).2]
        split
        · rename_i h
          rw [countWhile_apart hcut (by decide) (hdigit (Bool.and_eq_true_iff.mp h).2).1]
        · rfl
      · rw [if_neg (by simp [hpoint]), if_neg (by simp [hpoint])]

/-- So is an exponent. -/
theorem exponent_apart (hcut : Apart cut) (hle : exponent bs ≤ n) :
    exponent (bs.take n ++ cut) = exponent bs := by
  have hnone : exponent cut = 0 := by
    cases hcut with
    | nil => rfl
    | space behind => rfl
  cases bs with
  | nil => simpa [exponent] using hnone
  | cons e rest =>
    cases n with
    | zero => rw [Nat.le_zero.mp hle]; exact hnone
    | succ n =>
      rw [List.take_succ_cons, List.cons_append]
      simp only [exponent] at hle ⊢
      split at hle
      -- The digits may have a sign in front, and both are kept.
      · rename_i he
        rw [if_pos he, if_pos he, head?_apart hcut (by decide) fun h => by
          rw [if_pos h] at hle
          omega]
        cases hsign : (rest.head?.map (isOneOf "+-")).getD false with
        | false =>
          simp only [hsign, Bool.false_eq_true, if_false, List.drop_zero] at hle ⊢
          rw [countWhile_apart hcut (by decide) (by omega)]
        | true =>
          simp only [hsign, if_true] at hle ⊢
          have hlength : 1 ≤ rest.length := by
            cases rest with
            | nil => simp at hsign
            | cons => exact Nat.succ_le_succ (Nat.zero_le _)
          rw [drop_take_append (by omega) hlength, countWhile_apart hcut (by decide) (by omega)]
      · rename_i he
        rw [if_neg he, if_neg he]

/-- Whether the number at the head of a text is written to a base other than ten. -/
def hasRadix (bs : List UInt8) : Bool :=
  startsWith "0x" bs || startsWith "0X" bs || startsWith "0b" bs || startsWith "0B" bs

/-- A radix is seen in the first two bytes. -/
theorem hasRadix_apart (hcut : Apart cut) (hle : hasRadix bs = true → 2 ≤ n) :
    hasRadix (bs.take n ++ cut) = hasRadix bs := by
  unfold hasRadix
  rw [startsWith_apart hcut (by decide) fun h => hle (by simp [hasRadix, h]),
    startsWith_apart hcut (by decide) fun h => hle (by simp [hasRadix, h]),
    startsWith_apart hcut (by decide) fun h => hle (by simp [hasRadix, h]),
    startsWith_apart hcut (by decide) fun h => hle (by simp [hasRadix, h])]

/-- A number with a radix has neither fraction nor exponent. -/
theorem number_of_hasRadix (h : hasRadix bs = true) :
    number bs =
      let whole := 2 + countWhile (fun b => isHexDigit b || b == ascii '_') (bs.drop 2)
      let suffix := (bs.drop whole).takeWhile (isOneOf "uUlLfFdDmM")
      (if suffix.any (isOneOf "fFdDmM") then .real else .int, whole + suffix.length) := by
  unfold hasRadix at h
  simp [number, h]

theorem number_of_not_hasRadix (h : hasRadix bs = false) :
    number bs =
      let whole := countWhile isDigitOrBar bs
      let frac := fraction (bs.drop whole)
      let exp := exponent (bs.drop (whole + frac))
      let suffix := (bs.drop (whole + frac + exp)).takeWhile (isOneOf "uUlLfFdDmM")
      (if frac != 0 || exp != 0 || suffix.any (isOneOf "fFdDmM") then .real else .int,
        whole + frac + exp + suffix.length) := by
  unfold hasRadix at h
  simp [number, h]

/-- No number goes on behind a space, and none needs what stands there. -/
theorem number_apart (hcut : Apart cut) (bs : List UInt8) :
    number (bs.take (number bs).2 ++ cut) = number bs := by
  have hlength := number_le bs
  generalize hn : (number bs).2 = n at hlength ⊢
  -- Each part of a number ends within the bytes that are kept, so the cut shows to none of them.
  cases hradix : hasRadix bs with
  | true =>
    rw [number_of_hasRadix hradix] at hn
    dsimp only at hn
    rw [number_of_hasRadix (by rw [hasRadix_apart hcut fun _ => by omega, hradix]),
      number_of_hasRadix hradix]
    dsimp only
    rw [drop_take_append (k := 2) (by omega) (by omega),
      countWhile_apart hcut (by decide) (by omega), drop_take_append (by omega) (by omega),
      takeWhile_apart hcut (by decide) (by unfold countWhile at *; omega)]
  | false =>
    rw [number_of_not_hasRadix hradix] at hn
    dsimp only at hn
    rw [number_of_not_hasRadix (by rw [hasRadix_apart hcut (by simp [hradix]), hradix]),
      number_of_not_hasRadix hradix]
    dsimp only
    rw [countWhile_apart hcut (by decide) (by omega), drop_take_append (by omega) (by omega),
      fraction_apart hcut (by omega), drop_take_append (by omega) (by omega),
      exponent_apart hcut (by omega), drop_take_append (by omega) (by omega),
      takeWhile_apart hcut (by decide) (by unfold countWhile at *; omega)]

/-! ### Literals -/

/-- A literal on one line ends at its mark, whatever stands behind. -/
theorem quoted_cut (h : quoted mark bs = .ok n) (cut : List UInt8) :
    quoted mark (bs.take n ++ cut) = .ok n := by
  fun_induction quoted mark bs generalizing n with
  | case1 | case2 | case4 => cases h
  | case3 b hescape d rest ih =>
    obtain ⟨m, hm, rfl⟩ := map_eq_ok_iff.mp h
    show quoted mark (b :: d :: (rest.take m ++ cut)) = .ok (m + 2)
    rw [quoted, if_pos hescape, ih hm]
    rfl
  | case5 b rest hescape hnewline hmark =>
    cases h
    show quoted mark (b :: cut) = .ok 1
    rw [quoted.eq_def]
    simp [hescape, hnewline, hmark]
  | case6 b rest hescape hnewline hmark ih =>
    obtain ⟨m, hm, rfl⟩ := map_eq_ok_iff.mp h
    show quoted mark (b :: (rest.take m ++ cut)) = .ok (m + 1)
    rw [quoted.eq_def]
    simp [hescape, hnewline, hmark, ih hm, Except.map]

/-- A literal inside a hole ends at its mark, whatever stands behind. -/
theorem nested?_cut (h : nested? mark bs = some n) (hn : n ≤ k) :
    nested? mark (bs.take k ++ cut) = some n := by
  -- The bytes that are kept behind the literal are as good as those of the cut.
  rw [take_append_of_le hn]
  generalize (bs.drop n).take (k - n) ++ cut = cut
  clear hn
  fun_induction nested? mark bs generalizing n with
  | case1 | case2 => cases h
  | case3 b hescape d rest ih =>
    obtain ⟨m, hm, rfl⟩ := Option.map_eq_some_iff.mp h
    show nested? mark (b :: d :: (rest.take m ++ cut)) = some (m + 2)
    rw [nested?, if_pos hescape, ih hm]
    rfl
  | case4 b rest hescape hmark =>
    cases h
    show nested? mark (b :: cut) = some 1
    rw [nested?.eq_def]
    simp [hescape, hmark]
  | case5 b rest hescape hmark ih =>
    obtain ⟨m, hm, rfl⟩ := Option.map_eq_some_iff.mp h
    show nested? mark (b :: (rest.take m ++ cut)) = some (m + 1)
    rw [nested?.eq_def]
    simp [hescape, hmark, ih hm]

/-- A verbatim string ends at a mark with no second one behind it. -/
theorem verbatim?_apart (hcut : Apart cut) (h : verbatim? bs = some n) :
    verbatim? (bs.take n ++ cut) = some n := by
  have hend {b : UInt8} (hmark : (b == ascii '"') = true) : verbatim? (b :: cut) = some 1 := by
    cases hcut with
    | nil => rw [verbatim?, if_pos hmark]
    | space behind => rw [verbatim?, if_pos hmark, if_neg (by decide)]
  fun_induction verbatim? bs generalizing n with
  | case1 => cases h
  | case2 b hmark c rest hdoubled ih =>
    obtain ⟨m, hm, rfl⟩ := Option.map_eq_some_iff.mp h
    show verbatim? (b :: c :: (rest.take m ++ cut)) = some (m + 2)
    rw [verbatim?, if_pos hmark, if_pos hdoubled, ih hm]
    rfl
  | case3 b hmark | case4 b hmark =>
    cases h
    exact hend hmark
  | case5 b rest hmark ih =>
    obtain ⟨m, hm, rfl⟩ := Option.map_eq_some_iff.mp h
    show verbatim? (b :: (rest.take m ++ cut)) = some (m + 1)
    rw [verbatim?.eq_def]
    simp [hmark, ih hm]

/-- A string that goes on behind a byte keeps the bytes it looks at. -/
theorem interpolated_ahead (b : UInt8)
    (h : interpolated isVerbatim depth (pos + 1 + k) (rest.drop k) = .ok n) (cut : List UInt8) :
    k ≤ n - (pos + 1) ∧
      (b :: rest).take (n - pos) ++ cut = b :: (rest.take (n - (pos + 1)) ++ cut) ∧
      (rest.take (n - (pos + 1)) ++ cut).head? = rest.head? ∧
      (rest.take (n - (pos + 1)) ++ cut).drop k =
        (rest.drop k).take (n - (pos + 1 + k)) ++ cut := by
  obtain ⟨hpos, hle⟩ := interpolated_le h
  rw [List.length_drop] at hle
  obtain ⟨m, rfl⟩ : ∃ m, n = pos + 1 + (m + 1) := ⟨n - (pos + 2), by omega⟩
  have hsucc : pos + 1 + (m + 1) - pos = m + 2 := by omega
  have hdrop : (rest.take (m + 1) ++ cut).drop k = (rest.drop k).take (m + 1 - k) ++ cut :=
    drop_take_append (by omega) (by omega) cut
  rw [hsucc, Nat.add_sub_cancel_left, Nat.add_sub_add_left]
  cases rest with
  | nil => exact absurd hle (by simp only [List.length_nil]; omega)
  | cons d rest => exact ⟨by omega, rfl, rfl, hdrop⟩

/-- An interpolated string ends at a mark outside its holes. Behind every byte before that mark
stands one more byte of the string, so whether a byte is doubled is told by the string alone. -/
theorem interpolated_apart (hcut : Apart cut) (h : interpolated isVerbatim depth pos bs = .ok n) :
    interpolated isVerbatim depth pos (bs.take (n - pos) ++ cut) = .ok n := by
  -- one case for each kind of byte; each round goes on with one byte of the string more at least
  fun_induction interpolated isVerbatim depth pos bs with
  | case1 | case5 | case10 => cases h
  | case2 depth pos b rest doubled hdoubled ih =>
    obtain ⟨-, hcons, hhead, hdrop⟩ := interpolated_ahead (k := 1) b h cut
    rw [hcons, interpolated, hhead, if_pos hdoubled, hdrop]
    exact ih h
  | case3 depth pos b rest doubled hdoubled hopen ih =>
    obtain ⟨-, hcons, hhead, -⟩ := interpolated_ahead (k := 0) b h cut
    rw [hcons, interpolated, hhead, if_neg hdoubled, if_pos hopen]
    exact ih h
  | case4 depth pos b rest doubled hdoubled hopen hclose ih =>
    obtain ⟨-, hcons, hhead, -⟩ := interpolated_ahead (k := 0) b h cut
    rw [hcons, interpolated, hhead, if_neg hdoubled, if_neg hopen, if_pos hclose]
    exact ih h
  | case6 depth pos b rest doubled hdoubled hopen hclose hquote k hnested ih =>
    obtain ⟨hk, hcons, hhead, hdrop⟩ := interpolated_ahead b h cut
    rw [hcons, interpolated, hhead, if_neg hdoubled, if_neg hopen, if_neg hclose, if_pos hquote,
      nested?_cut hnested hk]
    dsimp only
    rw [hdrop]
    exact ih h
  | case7 depth pos b rest doubled hdoubled hopen hclose hquote hescape ih =>
    obtain ⟨-, hcons, hhead, hdrop⟩ := interpolated_ahead (k := 1) b h cut
    rw [hcons, interpolated, hhead, if_neg hdoubled, if_neg hopen, if_neg hclose, if_neg hquote,
      if_pos hescape, hdrop]
    exact ih h
  | case8 depth pos b rest doubled hdoubled hopen hclose hquote hescape hmark htwice ih =>
    obtain ⟨-, hcons, hhead, hdrop⟩ := interpolated_ahead (k := 1) b h cut
    rw [hcons, interpolated, hhead, if_neg hdoubled, if_neg hopen, if_neg hclose, if_neg hquote,
      if_neg hescape, if_pos hmark, if_pos htwice, hdrop]
    exact ih h
  | case9 depth pos b rest doubled hdoubled hopen hclose hquote hescape hmark htwice =>
    cases h
    obtain ⟨hdepth, hb⟩ := Bool.and_eq_true_iff.mp hmark
    obtain rfl := beq_iff_eq.mp hdepth
    obtain rfl := beq_iff_eq.mp hb
    -- The mark that ends the string is the last byte kept, and neither cut doubles it.
    have hhead : (cut.head? == some (ascii '"')) = false := by cases hcut <;> rfl
    rw [Nat.add_sub_cancel_left, List.take_succ_cons, List.take_zero, List.cons_append,
      List.nil_append, interpolated, hhead, if_neg (by simp), if_neg (by decide),
      if_neg (by decide), if_neg (by decide), if_neg hescape, if_pos hmark, if_neg (by simp)]
  | case11 depth pos b rest doubled hdoubled hopen hclose hquote hescape hmark hnewline ih =>
    obtain ⟨-, hcons, hhead, -⟩ := interpolated_ahead (k := 0) b h cut
    rw [hcons, interpolated, hhead, if_neg hdoubled, if_neg hopen, if_neg hclose, if_neg hquote,
      if_neg hescape, if_neg hmark, if_neg hnewline]
    exact ih h

/-- A raw string ends at as many marks as it starts with. -/
theorem raw?_apart (hcut : Apart cut) (h : raw? bs = some n) :
    raw? (bs.take n ++ cut) = some n := by
  obtain ⟨m, hm, rfl⟩ := Option.map_eq_some_iff.mp h
  have hle := countWhile_le (· == ascii '"') bs
  have hindex := indexOf?_cut hm cut
  rw [List.length_replicate] at hindex
  rw [raw?, countWhile_apart hcut (by decide) (by omega), drop_take_append (by omega) hle,
    Nat.add_assoc, Nat.add_sub_cancel_left, hindex]
  exact congrArg some (Nat.add_assoc _ _ _)

/-! ### Tokens -/

variable {p : Piece} {lead : Nat} {kind : TokenKind} {fault : SyntaxError.Cause}

theorem stringToken_eq_ok {extent : Option Nat} (h : stringToken lead extent fault = .ok (some p)) :
    ∃ n, extent = some n ∧ p = .token .string 0 (lead + n - 1) := by
  cases extent with
  | none => cases h
  | some n =>
    cases h
    exact ⟨n, rfl, rfl⟩

theorem three_le_raw? (hmarks : startsWith "\"\"\"" bs = true) (h : raw? bs = some n) : 3 ≤ n := by
  obtain ⟨m, -, rfl⟩ := Option.map_eq_some_iff.mp h
  obtain ⟨behind, rfl⟩ := List.isPrefixOf_iff_prefix.mp hmarks
  have hcount : 3 ≤ countWhile (· == ascii '"') ("\"\"\"".toList.map ascii ++ behind) := by
    simp [countWhile]
  omega

/-- A raw literal is read alike with a space behind it. -/
theorem rawToken_apart (b : UInt8) (lead : Nat) (hcut : Apart cut)
    (hmarks : startsWith "\"\"\"" ((b :: rest).drop lead) = true)
    (h : stringToken lead (raw? ((b :: rest).drop lead)) fault = .ok (some p)) :
    lead + 2 ≤ p.more ∧
      startsWith "\"\"\"" ((b :: (rest.take p.more ++ cut)).drop lead) = true ∧
      stringToken lead (raw? ((b :: (rest.take p.more ++ cut)).drop lead)) fault =
        .ok (some p) := by
  obtain ⟨n, hn, rfl⟩ := stringToken_eq_ok h
  have hthree := three_le_raw? hmarks hn
  have hle := raw?_le hn
  rw [List.length_drop] at hle
  obtain ⟨m, rfl⟩ : ∃ m, n = m + 1 := ⟨n - 1, by omega⟩
  have hdrop : (b :: (rest.take (lead + m) ++ cut)).drop lead =
      ((b :: rest).drop lead).take (m + 1) ++ cut := by
    rw [← List.cons_append, ← List.take_succ_cons, Nat.add_assoc lead m 1,
      drop_take_append (Nat.le_add_right _ _) (by omega), Nat.add_sub_cancel_left]
  refine ⟨by show lead + 2 ≤ lead + m; omega, ?_⟩
  show startsWith _ ((b :: (rest.take (lead + m) ++ cut)).drop lead) = true ∧
    stringToken lead (raw? ((b :: (rest.take (lead + m) ++ cut)).drop lead)) fault = _
  rw [hdrop, startsWith_apart hcut (by decide) fun _ => hthree, raw?_apart hcut hn]
  exact ⟨hmarks, rfl⟩

/-- An interpolated literal is read alike with a space behind it. -/
theorem interpolatedToken_apart (hcut : Apart cut)
    (h : interpolatedToken isVerbatim lead (b :: rest) = .ok (some p))
    (hlead : lead ≤ (b :: rest).length) :
    lead ≤ p.more ∧
      interpolatedToken isVerbatim lead (b :: (rest.take p.more ++ cut)) = .ok (some p) := by
  obtain ⟨n, hn, hp⟩ := map_eq_ok_iff.mp h
  obtain rfl := Option.some.inj hp
  obtain ⟨hlt, -⟩ := interpolated_le hn
  obtain ⟨m, rfl⟩ : ∃ m, n = m + 1 := ⟨n - 1, by omega⟩
  have hdrop : (b :: (rest.take m ++ cut)).drop lead =
      ((b :: rest).drop lead).take (m + 1 - lead) ++ cut := by
    rw [← List.cons_append, ← List.take_succ_cons, drop_take_append (by omega) hlead]
  refine ⟨Nat.le_of_lt_succ hlt, ?_⟩
  show interpolatedToken isVerbatim lead (b :: (rest.take m ++ cut)) = _
  rw [interpolatedToken, hdrop, interpolated_apart hcut hn]
  rfl

/-- A literal between marks is read alike whatever stands behind it. -/
theorem quotedToken_cut {mark : UInt8} (h : quotedToken kind mark rest = .ok (some p)) :
    quotedToken kind mark (rest.take p.more ++ cut) = .ok (some p) := by
  unfold quotedToken at h ⊢
  split at h
  · cases h
  · rename_i n hn
    cases h
    have hread : quoted mark (rest.take n ++ cut) = .ok n := quoted_cut hn cut
    rw [Piece.more, hread]

/-- Behind an at sign stands a string or an identifier. -/
theorem marked?_apart_of_at (hcut : Apart cut) (hat : (b == ascii '@') = true)
    (h : marked? b rest = .ok (some p)) : marked? b (rest.take p.more ++ cut) = .ok (some p) := by
  -- a verbatim string, an interpolated one, or an identifier
  simp only [marked?, if_pos hat] at h ⊢
  split at h
  · rename_i hquote
    obtain ⟨n, hn, rfl⟩ := stringToken_eq_ok h
    have hlength : 1 ≤ rest.length := length_le_of_startsWith hquote
    have hmore : (Piece.token .string 0 (2 + n - 1)).more = n + 1 := by
      show 2 + n - 1 = n + 1
      omega
    rw [hmore, startsWith_apart hcut (by decide) fun _ => Nat.succ_le_succ (Nat.zero_le n),
      if_pos hquote, drop_take_append (Nat.le_add_left 1 n) hlength, Nat.add_sub_cancel,
      verbatim?_apart hcut hn]
    rfl
  rename_i hquote
  rw [startsWith_apart hcut (by decide) fun h => absurd h hquote, if_neg hquote]
  split at h
  · rename_i hmarks
    obtain ⟨hle, hread⟩ := interpolatedToken_apart hcut h
      (Nat.succ_le_succ (length_le_of_startsWith hmarks))
    rw [startsWith_apart hcut (by decide) fun _ => Nat.le_of_succ_le hle, if_pos hmarks, hread]
  · rename_i hmarks
    rw [startsWith_apart hcut (by decide) fun h => absurd h hmarks, if_neg hmarks]
    obtain ⟨n, hn, rfl⟩ := Option.map_eq_some_iff.mp (Except.ok.inj h)
    have hread : identifier? (rest.take n ++ cut) = some n := identifier?_apart hcut hn
    rw [Piece.more, hread]
    rfl

/-- Behind a dollar sign stands a string. That it is raw is told by marks which may stand behind
more signs. -/
theorem marked?_apart_of_dollar (hcut : Apart cut) (hat : ¬(b == ascii '@') = true)
    (hsign : (b == ascii '$') = true) (h : marked? b rest = .ok (some p)) :
    marked? b (rest.take p.more ++ cut) = .ok (some p) := by
  simp only [marked?, if_neg hat, if_pos hsign] at h ⊢
  split at h
  · rename_i hmarks
    obtain ⟨-, hmarks, hread⟩ := rawToken_apart b 1 hcut hmarks h
    exact (if_pos hmarks).trans hread
  rename_i hraw
  rw [startsWith_apart hcut (by decide) fun h => absurd h hraw, if_neg hraw]
  split at h
  · rename_i hquote
    obtain ⟨hle, hread⟩ := interpolatedToken_apart hcut h
      (Nat.succ_le_succ (length_le_of_startsWith hquote))
    rw [startsWith_apart hcut (by decide) fun _ => Nat.le_of_succ_le hle, if_pos hquote, hread]
  rename_i hquote
  rw [startsWith_apart hcut (by decide) fun h => absurd h hquote, if_neg hquote]
  split at h
  · rename_i hverbatim
    obtain ⟨hle, hread⟩ := interpolatedToken_apart hcut h
      (Nat.succ_le_succ (length_le_of_startsWith hverbatim))
    rw [startsWith_apart hcut (by decide) fun _ => Nat.le_of_succ_le hle, if_pos hverbatim, hread]
  rename_i hverbatim
  rw [startsWith_apart hcut (by decide) fun h => absurd h hverbatim, if_neg hverbatim]
  split at h
  · rename_i hsigns
    split at h
    · rename_i hmarks
      -- all of the signs belong to the token, so they are counted alike
      obtain ⟨hle, hmarks, hread⟩ := rawToken_apart b _ hcut hmarks h
      have hcount : countWhile (· == ascii '$') (b :: (rest.take p.more ++ cut)) =
          countWhile (· == ascii '$') (b :: rest) := by
        rw [← List.cons_append, ← List.take_succ_cons]
        exact countWhile_apart hcut (by decide) (by omega)
      rw [startsWith_apart hcut (by decide) fun _ => by
        show 1 ≤ p.more
        omega, if_pos hsigns, hcount, if_pos hmarks, hread]
    · cases h
  · cases h

/-- What a mark introduces is read alike with a space behind it. -/
theorem marked?_apart (hcut : Apart cut) (h : marked? b rest = .ok (some p)) :
    marked? b (rest.take p.more ++ cut) = .ok (some p) := by
  by_cases hat : (b == ascii '@') = true
  · exact marked?_apart_of_at hcut hat h
  by_cases hsign : (b == ascii '$') = true
  · exact marked?_apart_of_dollar hcut hat hsign h
  simp only [marked?, if_neg hat, if_neg hsign] at h ⊢
  split at h
  · rename_i hquote
    rw [if_pos hquote]
    split at h
    · rename_i hmarks
      obtain ⟨-, hmarks, hread⟩ := rawToken_apart b 0 hcut hmarks h
      exact (if_pos hmarks).trans hread
    · rename_i hmarks
      rw [← List.cons_append, ← List.take_succ_cons,
        startsWith_apart hcut (by decide) fun h => absurd h hmarks, if_neg hmarks,
        -- A plain string needs no byte behind its mark.
        quotedToken_cut h]
  rename_i hquote
  rw [if_neg hquote]
  split at h
  · rename_i hmark
    rw [if_pos hmark, quotedToken_cut h]
  · cases h

/-- Whether a number stands at the head of a text. -/
def startsNumber (b : UInt8) (rest : List UInt8) : Bool :=
  isDigit b || (b == ascii '.' && (rest.head?.map isDigit).getD false)

/-- A number that starts with a point has a digit behind the point. -/
theorem number_pos (h : startsNumber b rest = true) :
    0 < (number (b :: rest)).2 ∧ (isDigit b = false → 1 < (number (b :: rest)).2) := by
  cases hradix : hasRadix (b :: rest) with
  | true =>
    rw [number_of_hasRadix hradix]
    dsimp only
    omega
  | false =>
    rw [number_of_not_hasRadix hradix]
    dsimp only
    cases hdigit : isDigit b with
    | true =>
      have hcount : 0 < countWhile isDigitOrBar (b :: rest) := by
        simp [countWhile, isDigitOrBar, hdigit]
      exact ⟨by omega, by simp⟩
    | false =>
      -- Without a digit in front it is the fraction that takes the bytes.
      rw [startsNumber, hdigit, Bool.false_or] at h
      obtain rfl := beq_iff_eq.mp (Bool.and_eq_true_iff.mp h).1
      have hcount : countWhile isDigitOrBar (ascii '.' :: rest) = 0 := by
        simp [countWhile, show isDigitOrBar (ascii '.') = false by decide]
      have hfraction : 1 < fraction (ascii '.' :: rest) := by
        rw [fraction_cons, if_pos h]
        cases rest with
        | nil => simp at h
        | cons d rest =>
          have hd : isDigitOrBar d = true := by simp_all [isDigitOrBar]
          simp [countWhile, hd]
      rw [hcount, List.drop_zero]
      exact ⟨by omega, fun _ => by omega⟩

/-- Whether a number starts is seen in the first two bytes. -/
theorem startsNumber_apart (hcut : Apart cut)
    (hle : startsNumber b rest = true → isDigit b = false → 0 < n) :
    startsNumber b (rest.take n ++ cut) = startsNumber b rest := by
  unfold startsNumber at hle ⊢
  cases hdigit : isDigit b with
  | true => rfl
  | false =>
    by_cases hpoint : b = ascii '.'
    · rw [head?_apart hcut (by decide) fun h => hle (by simp [hpoint, h]) hdigit]
    · rw [beq_eq_false_iff_ne.mpr hpoint, Bool.false_and, Bool.false_and]

/-- No punctuator has a space in it. -/
theorem not_mem_punctuators : ∀ q ∈ punctuators, ascii ' ' ∉ q.toList.map ascii := by decide

/-- The first punctuator that fits still is the first one if a space stands behind it. -/
theorem find?_punctuators_apart {q : String} (hcut : Apart cut)
    (h : punctuators.find? (startsWith · bs) = some q) :
    punctuators.find? (startsWith · (bs.take q.length ++ cut)) = some q := by
  obtain ⟨hq, longer, shorter, hsplit, hlonger⟩ := List.find?_eq_some_iff_append.mp h
  have hmem {r : String} (hr : r ∈ longer ++ q :: shorter) : ascii ' ' ∉ r.toList.map ascii :=
    not_mem_punctuators r (hsplit ▸ hr)
  refine List.find?_eq_some_iff_append.mpr ⟨?_, longer, shorter, hsplit, fun r hr => ?_⟩
  · rw [startsWith_apart hcut (hmem (by simp)) fun _ => Nat.le_refl _]
    exact hq
  · have hno := hlonger r hr
    rw [startsWith_apart hcut (hmem (by simp [hr])) fun h => absurd h (by simpa using hno)]
    exact hno

theorem plain_of_startsNumber (h : startsNumber b rest = true) :
    plain b rest = .ok (.token (number (b :: rest)).1 0 ((number (b :: rest)).2 - 1)) :=
  if_pos h

theorem plain_of_not_startsNumber (h : startsNumber b rest = false) :
    plain b rest =
      match punctuators.find? (startsWith · (b :: rest)) with
      | some q => .ok (.token .punct 0 (q.length - 1))
      | none => .error ⟨0, .unexpectedChar (Text.Utf8.next b rest).1.toChar⟩ :=
  if_neg (Bool.eq_false_iff.mp h)

theorem length_pos_of_mem_punctuators : ∀ q ∈ punctuators, 0 < q.length := by decide

/-- Numbers, words and punctuators are read alike with a space behind them. -/
theorem plain_apart (hcut : Apart cut) (h : plain b rest = .ok p) :
    plain b (rest.take p.more ++ cut) = .ok p := by
  cases hstarts : startsNumber b rest with
  | true =>
    rw [plain_of_startsNumber hstarts] at h
    obtain ⟨hpos, hpoint⟩ := number_pos hstarts
    have hread := number_apart hcut (b :: rest)
    obtain ⟨m, hm⟩ : ∃ m, (number (b :: rest)).2 = m + 1 :=
      ⟨_, (Nat.succ_pred_eq_of_pos hpos).symm⟩
    rw [hm] at h hpoint hread
    -- The first byte is kept in any case, so only what is behind it is cut.
    cases h
    have hstarts : startsNumber b (rest.take m ++ cut) = true := by
      rw [startsNumber_apart hcut fun _ h => Nat.lt_of_succ_lt_succ (hpoint h), hstarts]
    have hread : number (b :: (rest.take m ++ cut)) = number (b :: rest) := hread
    show plain b (rest.take m ++ cut) = _
    rw [plain_of_startsNumber hstarts, hread, hm]
  | false =>
    rw [plain_of_not_startsNumber hstarts] at h
    split at h
    · rename_i q hq
      cases h
      obtain ⟨m, hm⟩ : ∃ m, q.length = m + 1 :=
        ⟨_, (Nat.succ_pred_eq_of_pos
          (length_pos_of_mem_punctuators q (List.mem_of_find?_eq_some hq))).symm⟩
      -- The longest punctuator comes first in the list, and a space makes none longer.
      have hread := find?_punctuators_apart hcut hq
      rw [hm] at hread ⊢
      have hstarts : startsNumber b (rest.take m ++ cut) = false := by
        rw [startsNumber_apart hcut (by simp [hstarts]), hstarts]
      have hread : punctuators.find? (startsWith · (b :: (rest.take m ++ cut))) = some q := hread
      show plain b (rest.take m ++ cut) = _
      rw [plain_of_not_startsNumber hstarts, hread, ← hm]
    · cases h

end CSharpAudit.Lexer
