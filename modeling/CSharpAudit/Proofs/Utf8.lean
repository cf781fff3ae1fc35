import Mathlib
import CSharpAudit.Text.Utf8

/-!
# Pieces of byte lists

A character is read from its own bytes alone: cutting off what stands behind it does not change how
it is read.

## Main results

* `Utf8.next_ascii` — an ASCII byte is a piece of its own
* `Utf8.next_snd_le` — a piece reaches no further than the byte list
* `Utf8.next_append` — a character is read alike whatever stands behind it
* `Utf8.text_append` — a text may be cut in front of a character
* `Utf8.text_cons_ascii` — the text of a byte list that starts with an ASCII byte
* `Utf8.eq_of_text_eq` — a text of ASCII characters is written by their bytes
* `Utf8.text_takeWhile_ne` — to cut a text at an ASCII character is to cut its bytes
-/

namespace CSharpAudit.Text.Utf8

variable {b : UInt8} {rest : List UInt8} {c : Char} {n : Nat}

theorem next_ascii (h : b < 0x80) (rest : List UInt8) :
    next b rest = (.char (Char.ofNat b.toNat), 0) := by
  unfold next
  exact if_pos h

theorem next_snd_le (b : UInt8) (rest : List UInt8) : (next b rest).2 ≤ rest.length := by
  unfold next
  repeat' split
  all_goals simp

theorem next_append (h : next b rest = (.char c, n)) (more : List UInt8) :
    next b (rest.take n ++ more) = (.char c, n) := by
  unfold next at h
  repeat' split at h
  all_goals simp only [Prod.mk.injEq, Piece.char.injEq, reduceCtorEq, false_and] at h
  all_goals obtain ⟨rfl, rfl⟩ := h
  · exact next_ascii ‹_› _
  -- the bytes that were read are still in place, so every test comes out as before
  all_goals
    simp only [next, List.take_succ_cons, List.take_zero, List.cons_append, List.nil_append, *,
      if_true, if_false]

theorem le_of_isContinuation (h : isContinuation b = true) : 0x80 ≤ b := by
  simp only [isContinuation, Bool.and_eq_true, decide_eq_true_eq] at h
  exact h.1

theorem isContinuation_of_secondByteOk {b0 : UInt8} (h : secondByteOk b0 b = true) :
    isContinuation b = true := by
  simp only [secondByteOk, isContinuation] at h ⊢
  grind

/-- The bytes behind the first one of a sequence continue it. -/
theorem isContinuation_of_mem_take_next (h : next b rest = (.char c, n)) {d : UInt8}
    (hd : d ∈ rest.take n) : isContinuation d = true := by
  -- one case for each length of a sequence, from one byte to four
  unfold next at h
  repeat' split at h
  all_goals simp only [Prod.mk.injEq, Piece.char.injEq, reduceCtorEq, false_and] at h
  all_goals obtain ⟨-, rfl⟩ := h
  · cases hd
  · rename_i hok
    exact List.mem_singleton.mp hd ▸ hok
  · rename_i hok
    simp only [Bool.and_eq_true] at hok
    rcases List.mem_cons.mp hd with rfl | hd
    · exact isContinuation_of_secondByteOk hok.1
    · exact List.mem_singleton.mp hd ▸ hok.2
  · rename_i hok
    simp only [Bool.and_eq_true] at hok
    rcases List.mem_cons.mp hd with rfl | hd
    · exact isContinuation_of_secondByteOk hok.1.1
    rcases List.mem_cons.mp hd with rfl | hd
    · exact hok.1.2
    · exact List.mem_singleton.mp hd ▸ hok.2

/-- The bytes behind the first one of a sequence are not ASCII. -/
theorem le_of_mem_take_next (h : next b rest = (.char c, n)) {d : UInt8} (hd : d ∈ rest.take n) :
    0x80 ≤ d := le_of_isContinuation (isContinuation_of_mem_take_next h hd)

theorem text_cons_ascii (h : b < 0x80) (rest : List UInt8) :
    (text (b :: rest)).toList = Char.ofNat b.toNat :: (text rest).toList := by
  simp [text, pieces, next_ascii h, Piece.toChar]

theorem toNat_ofNat_of_lt {n : Nat} (h : n < 0x80) : (Char.ofNat n).toNat = n := by
  have hvalid : n.isValidChar := .inl (by omega)
  simp [Char.ofNat, hvalid, Char.ofNatAux, Char.toNat]

theorem toNat_ofNat_ge {n : Nat} (h : 0x80 ≤ n) :
    (Char.ofNat n).toNat = 0 ∨ 0x80 ≤ (Char.ofNat n).toNat := by
  unfold Char.ofNat
  split
  · exact .inr (by simpa [Char.ofNatAux, Char.toNat] using h)
  · exact .inl rfl

theorem payload_of_secondByteOk {b0 b1 : UInt8} (h : secondByteOk b0 b1 = true) :
    (b0.toNat = 0xE0 → 0x20 ≤ payload b1) ∧ (b0.toNat = 0xF0 → 0x10 ≤ payload b1) := by
  have hE0 (hb : b0.toNat = 0xE0) : b0 = 0xE0 := UInt8.toNat_inj.mp hb
  have hF0 (hb : b0.toNat = 0xF0) : b0 = 0xF0 := UInt8.toNat_inj.mp hb
  constructor
  · intro hb
    obtain rfl := hE0 hb
    simp [secondByteOk, payload, UInt8.le_iff_toNat_le] at h ⊢
    omega
  · intro hb
    obtain rfl := hF0 hb
    simp [secondByteOk, payload, UInt8.le_iff_toNat_le] at h ⊢
    omega

/-- Several bytes write no ASCII character, but possibly none at all. -/
theorem next_char_ge (hb : 0x80 ≤ b) (h : next b rest = (.char c, n)) :
    c.toNat = 0 ∨ 0x80 ≤ c.toNat := by
  unfold next at h
  simp only [UInt8.lt_iff_toNat_lt, UInt8.le_iff_toNat_le, UInt8.reduceToNat] at h hb
  repeat' split at h
  all_goals simp only [Prod.mk.injEq, Piece.char.injEq, reduceCtorEq, false_and] at h
  · omega
  all_goals
    obtain ⟨rfl, -⟩ := h
    refine toNat_ofNat_ge ?_
  · omega
  · rename_i hok
    have := (payload_of_secondByteOk (Bool.and_eq_true_iff.mp hok).1).1
    omega
  · rename_i hok
    have := (payload_of_secondByteOk (Bool.and_eq_true_iff.mp (Bool.and_eq_true_iff.mp hok).1).1).2
    omega

/-- A stray byte is a piece by itself. -/
theorem next_stray {d : UInt8} (h : next b rest = (.stray d, n)) : d = b ∧ n = 0 := by
  unfold next at h
  repeat' split at h
  all_goals simp only [Prod.mk.injEq, reduceCtorEq, false_and, Piece.stray.injEq] at h
  all_goals exact ⟨h.1.symm, h.2.symm⟩

/-- A byte that is stray stays so if less stands behind it. -/
theorem next_stray_of_prefix {d : UInt8} {less : List UInt8} (h : next b rest = (.stray d, n))
    (hless : less <+: rest) : next b less = (.stray d, n) := by
  obtain ⟨rfl, rfl⟩ := next_stray h
  cases hnext : next d less with
  | mk piece m =>
    cases piece with
    | stray e =>
      obtain ⟨rfl, rfl⟩ := next_stray hnext
      rfl
    | char c =>
      -- a character that is read from less is read from more as well
      obtain ⟨more, rfl⟩ := hless
      have hm : m ≤ less.length := by simpa [hnext] using next_snd_le d less
      have hmore := next_append hnext (less.drop m ++ more)
      rw [← List.append_assoc, List.take_append_drop, h] at hmore
      cases hmore

/-- A byte that begins a character continues none. -/
theorem isContinuation_of_next (h : next b rest = (.char c, n)) : isContinuation b = false := by
  by_contra hcont
  simp only [isContinuation, Bool.not_eq_false, Bool.and_eq_true, decide_eq_true_eq] at hcont
  have hlow : ¬ b < 0x80 := by grind
  have hhigh : b < 0xC2 := by grind
  simp [next, hlow, hhigh] at h

/-- Bytes are read alike whatever stands behind them, if that does not continue them. -/
theorem next_append_of_not_isContinuation {bs : List UInt8} {d : UInt8}
    (hd : isContinuation d = false) : next b (bs ++ d :: rest) = next b bs := by
  cases hbs : next b bs with
  | mk piece n =>
    cases piece with
    | char c =>
      rw [← List.take_append_drop n bs, List.append_assoc]
      have hn : n ≤ bs.length := by simpa [hbs] using next_snd_le b bs
      exact next_append hbs _
    -- A stray byte could become the first one of a character only if `d` belonged to that.
    | stray e =>
      obtain ⟨rfl, rfl⟩ := next_stray hbs
      cases hmore : next e (bs ++ d :: rest) with
      | mk piece m =>
        cases piece with
        | stray f =>
          obtain ⟨rfl, rfl⟩ := next_stray hmore
          rfl
        | char c =>
          by_cases hm : m ≤ bs.length
          · have hless := next_append hmore (bs.drop m)
            rw [List.take_append_of_le_length hm, List.take_append_drop, hbs] at hless
            cases hless
          · have hmem : d ∈ (bs ++ d :: rest).take m := by
              obtain ⟨k, rfl⟩ := Nat.exists_eq_add_of_lt (Nat.lt_of_not_le hm)
              simp [List.take_append, Nat.add_assoc]
            exact absurd ((isContinuation_of_mem_take_next hmore hmem).symm.trans hd) (by decide)

theorem pieces_append {d : UInt8} (hd : isContinuation d = false) (bs : List UInt8) :
    pieces (bs ++ d :: rest) = pieces bs ++ pieces (d :: rest) := by
  induction bs using pieces.induct with
  | case1 => rw [pieces, List.nil_append, List.nil_append]
  | case2 b bs ih =>
    have hn := next_snd_le b bs
    rw [List.cons_append, pieces, next_append_of_not_isContinuation hd,
      List.drop_append_of_le_length hn, ih]
    conv_rhs => rw [pieces]
    rfl

/-- A text may be cut in front of a character. -/
theorem text_append {d : UInt8} (hd : isContinuation d = false) (bs : List UInt8) :
    text (bs ++ d :: rest) = text bs ++ text (d :: rest) := by
  rw [text, pieces_append hd, List.map_append, String.ofList_append]
  rfl
/-- A piece that does not start with an ASCII byte is read as no ASCII character, but possibly
zero. -/
theorem toChar_next_ge (hb : 0x80 ≤ b) (rest : List UInt8) :
    (next b rest).1.toChar.toNat = 0 ∨ 0x80 ≤ (next b rest).1.toChar.toNat := by
  cases hnext : next b rest with
  | mk piece n =>
    cases piece with
    | char c => exact next_char_ge hb hnext
    | stray d => exact .inr (show 0x80 ≤ replacement.toNat by decide)

/-- A text that starts with an ASCII character is written by a byte list that starts with its
byte. -/
theorem exists_cons_of_text_eq {bs : List UInt8} {cs : List Char} (hc : c.toNat ≠ 0)
    (hc' : c.toNat < 0x80) (h : (text bs).toList = c :: cs) :
    ∃ rest, bs = c.toNat.toUInt8 :: rest ∧ (text rest).toList = cs := by
  cases bs with
  | nil => simp [text, pieces] at h
  | cons b rest =>
    by_cases hb : b < 0x80
    · rw [text_cons_ascii hb] at h
      obtain ⟨hhead, htail⟩ := List.cons.inj h
      have hb : b.toNat < 0x80 := hb
      have hnat : c.toNat = b.toNat := by rw [← hhead]; exact toNat_ofNat_of_lt hb
      exact ⟨rest, by simp [hnat], htail⟩
    · exfalso
      rw [text, String.toList_ofList, pieces, List.map_cons] at h
      have hhead : (next b rest).1.toChar = c := (List.cons.inj h).1
      have := toChar_next_ge (UInt8.not_lt.mp hb) rest
      rw [hhead] at this
      omega

/-- A text of ASCII characters is written by their bytes alone. -/
theorem eq_of_text_eq {cs : List Char} (hcs : ∀ c ∈ cs, c.toNat ≠ 0 ∧ c.toNat < 0x80)
    {bs : List UInt8} (h : (text bs).toList = cs) : bs = cs.map fun c => c.toNat.toUInt8 := by
  induction cs generalizing bs with
  | nil =>
    cases bs with
    | nil => rfl
    | cons b rest => simp [text, pieces] at h
  | cons c cs ih =>
    obtain ⟨hc, hc'⟩ := hcs c List.mem_cons_self
    obtain ⟨rest, rfl, hrest⟩ := exists_cons_of_text_eq hc hc' h
    rw [List.map_cons, ih (fun d hd => hcs d (List.mem_cons_of_mem c hd)) hrest]

/-- The bytes of ASCII characters are read as these. -/
theorem text_map_ascii {cs : List Char} (hcs : ∀ c ∈ cs, c.toNat < 0x80) :
    (text (cs.map fun c => c.toNat.toUInt8)).toList = cs := by
  induction cs with
  | nil => simp [text, pieces]
  | cons c cs ih =>
    have hc : c.toNat < 0x80 := hcs c List.mem_cons_self
    have hbyte : c.toNat.toUInt8.toNat = c.toNat := by
      rw [show c.toNat.toUInt8.toNat = c.toNat % 256 from UInt8.toNat_ofNat']
      omega
    have hlt : c.toNat.toUInt8 < 0x80 := by
      rw [UInt8.lt_iff_toNat_lt, hbyte]
      exact hc
    rw [List.map_cons, text_cons_ascii hlt, hbyte, Char.ofNat_toNat,
      ih fun d hd => hcs d (List.mem_cons_of_mem c hd)]

/-- A text that is one ASCII character is written by that byte alone. -/
theorem head?_of_text_eq {bs : List UInt8} {s : String} (hs : s.toList = [c]) (hc : c.toNat ≠ 0)
    (hc' : c.toNat < 0x80) (h : text bs = s) : bs.head? = some c.toNat.toUInt8 := by
  rw [← h] at hs
  obtain ⟨rest, rfl, -⟩ := exists_cons_of_text_eq hc hc' hs
  rfl

theorem ne_of_ascii {d e : UInt8} (hd : d < 0x80) (he : 0x80 ≤ e) : e ≠ d := by
  rintro rfl
  exact absurd hd (UInt8.not_lt.mpr he)

/-- A cut at an ASCII character is behind the first piece that is read, if that piece is longer. -/
theorem takeWhile_next {d : UInt8} (hd : d < 0x80) (b : UInt8) (rest : List UInt8) :
    rest.takeWhile (· != d) = rest.take (next b rest).2 ++
      (rest.drop (next b rest).2).takeWhile (· != d) := by
  conv_lhs => rw [← List.take_append_drop (next b rest).2 rest]
  refine List.takeWhile_append_of_pos fun e he => ?_
  cases hnext : next b rest with
  | mk piece n =>
    rw [hnext] at he
    cases piece with
    | char c => simpa using ne_of_ascii hd (le_of_mem_take_next hnext he)
    | stray _ =>
      obtain ⟨-, rfl⟩ := next_stray hnext
      cases he

/-- The first piece is read as before if the text is cut at an ASCII character. -/
theorem next_takeWhile {d : UInt8} (hd : d < 0x80) (b : UInt8) (rest : List UInt8) :
    next b (rest.takeWhile (· != d)) = next b rest := by
  cases h : next b rest with
  | mk piece n =>
    cases piece with
    | char c =>
      rw [takeWhile_next hd b, h]
      exact next_append h _
    | stray _ => exact next_stray_of_prefix h (List.takeWhile_prefix _)

theorem drop_takeWhile_next {d : UInt8} (hd : d < 0x80) (b : UInt8) (rest : List UInt8) :
    (rest.takeWhile (· != d)).drop (next b rest).2 =
      (rest.drop (next b rest).2).takeWhile (· != d) := by
  rw [takeWhile_next hd b]
  exact List.drop_left' (by simpa using next_snd_le b rest)

/-- To cut a text at an ASCII character is to cut its bytes at the byte of that character. -/
theorem text_takeWhile_ne {d : UInt8} (hd : d ≠ 0) (hd' : d < 0x80) (bs : List UInt8) :
    (text (bs.takeWhile (· != d))).toList =
      (text bs).toList.takeWhile (· != Char.ofNat d.toNat) := by
  have hchar : (Char.ofNat d.toNat).toNat = d.toNat := toNat_ofNat_of_lt hd'
  -- along the pieces of the text
  induction bs using pieces.induct with
  | case1 => simp [text, pieces]
  | case2 b rest ih =>
    by_cases hb : b < 0x80
    · rw [next_ascii hb, List.drop_zero] at ih
      by_cases hbd : b = d
      · subst hbd
        rw [List.takeWhile_cons_of_neg (by simp), text_cons_ascii hb,
          List.takeWhile_cons_of_neg (by simp)]
        simp [text, pieces]
      · have hne : Char.ofNat b.toNat ≠ Char.ofNat d.toNat := by
          intro heq
          have hnat := congrArg Char.toNat heq
          rw [hchar, toNat_ofNat_of_lt (show b.toNat < 0x80 from hb)] at hnat
          exact hbd (UInt8.toNat_inj.mp hnat)
        rw [List.takeWhile_cons_of_pos (by simpa using hbd), text_cons_ascii hb, ih,
          text_cons_ascii hb, List.takeWhile_cons_of_pos (by simpa using hne)]
    · -- the bytes of the piece are all kept, and what is left of the others is read as before
      have hb : 0x80 ≤ b := UInt8.not_lt.mp hb
      have hne : (next b rest).1.toChar ≠ Char.ofNat d.toNat := by
        intro heq
        have hlt : d.toNat < 0x80 := hd'
        have hzero : d.toNat ≠ 0 := fun h => hd (UInt8.toNat_inj.mp h)
        have := toChar_next_ge hb rest
        rw [heq, hchar] at this
        omega
      rw [List.takeWhile_cons_of_pos (by simpa using ne_of_ascii hd' hb)]
      simp only [text, String.toList_ofList] at ih ⊢
      rw [pieces, next_takeWhile hd', drop_takeWhile_next hd', List.map_cons, ih, pieces,
        List.map_cons, List.takeWhile_cons_of_pos (by simpa using hne)]

/-- A text starts with an ASCII character if its bytes start with the byte of that character. -/
theorem head?_text_eq_iff {d : UInt8} (hd : d ≠ 0) (hd' : d < 0x80) (bs : List UInt8) :
    (text bs).toList.head? = some (Char.ofNat d.toNat) ↔ bs.head? = some d := by
  have hchar : (Char.ofNat d.toNat).toNat = d.toNat := toNat_ofNat_of_lt hd'
  have hd'' : d.toNat < 0x80 := hd'
  have hzero : d.toNat ≠ 0 := fun h => hd (UInt8.toNat_inj.mp h)
  constructor
  · intro h
    obtain ⟨cs, hcs⟩ := List.head?_eq_some_iff.mp h
    obtain ⟨rest, rfl, -⟩ := exists_cons_of_text_eq (by omega) (by omega) hcs
    simp [hchar]
  · intro h
    obtain ⟨rest, rfl⟩ := List.head?_eq_some_iff.mp h
    rw [text_cons_ascii hd', List.head?_cons]

end CSharpAudit.Text.Utf8
