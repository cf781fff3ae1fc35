import CSharpAudit.Proofs.Relexing

/-!
# Words

An identifier consists of characters of a few classes, none of which is a blank or a punctuator. So
a text that is put together from words and punctuators falls apart into these again, unless two
punctuators join to a longer one.

## Main definitions

* `IsWord` — a text that an identifier may consist of
* `Lexer.Lexes` — a text is read as tokens that have a property
* `Lexer.Beside` — tokens with those of the rest of a text behind them
* `Lexer.Follows` — a text that starts with one of some characters, or is empty
* `Lexer.joins` — a byte that may go on with a punctuator

## Main results

* `Text.Utf8.next_utf8EncodeChar` — a character is read from the bytes that it is written with
* `Lexer.isWord_of_lex` — the identifiers of a text are words
* `Lexer.Lexes.word`, `Lexer.Lexes.mark` — words and punctuators are read from their bytes
-/

namespace CSharpAudit

/-! ### Bytes of a text -/

namespace Text.Utf8

variable {c : Char}

theorem toList_loop (bs : ByteArray) (i : Nat) (r : List UInt8) :
    ByteArray.toList.loop bs i r = r.reverse ++ bs.data.toList.drop i := by
  induction i, r using ByteArray.toList.loop.induct bs with
  | case1 i r hlt ih =>
    have hi : i < bs.data.toList.length := by simpa using hlt
    have hget : bs.get! i = bs.data.toList[i] := by
      simp [ByteArray.get!, getElem!_pos bs.data i hlt]
    rw [ByteArray.toList.loop, if_pos hlt, ih, List.reverse_cons, List.append_assoc,
      List.singleton_append, hget, ← List.drop_eq_getElem_cons]
  | case2 i r hge =>
    rw [ByteArray.toList.loop, if_neg hge, List.drop_eq_nil_of_le, List.append_nil]
    simpa using hge

/-- A text is encoded character by character. -/
theorem bytes_eq (s : String) : bytes s = s.toList.flatMap String.utf8EncodeChar := by
  have h := String.utf8Encode_toList (b := s)
  rw [bytes, String.toUTF8, ← h, ByteArray.toList, toList_loop, List.utf8Encode]
  simp

/-- Two texts in a row are encoded one behind the other. -/
theorem bytes_append (s t : String) : bytes (s ++ t) = bytes s ++ bytes t := by
  simp [bytes_eq]

section Encoded

variable {a b d e : Nat} {rest : List UInt8}

theorem toNat_ofNat_add {k : Nat} (h : a + k < 256) : (UInt8.ofNat (a + k)).toNat = a + k := by
  rw [UInt8.toNat_ofNat', Nat.mod_eq_of_lt h]

/-- A character of one byte is decoded. -/
theorem next_one (h : a < 128) : next (UInt8.ofNat a) rest = (.char (Char.ofNat a), 0) := by
  have ha := toNat_ofNat_add (k := 0) (a := a) (by omega)
  rw [Nat.add_zero] at ha
  simp only [next, UInt8.lt_iff_toNat_lt, UInt8.reduceToNat, ha, if_pos h]

/-- Two bytes are read as one character. -/
theorem next_two (ha : 2 ≤ a ∧ a < 32) (hb : b < 64) :
    next (UInt8.ofNat (a + 192)) (UInt8.ofNat (b + 128) :: rest) =
      (.char (Char.ofNat (a * 64 + b)), 1) := by
  have ha' := toNat_ofNat_add (a := a) (k := 192) (by omega)
  have hb' := toNat_ofNat_add (a := b) (k := 128) (by omega)
  simp only [next, isContinuation, payload, UInt8.lt_iff_toNat_lt, UInt8.le_iff_toNat_le,
    UInt8.reduceToNat, ha', hb']
  have hvalue : (a + 192) % 32 * 64 + (b + 128) % 64 = a * 64 + b := by omega
  rw [if_neg (by omega), if_neg (by omega), if_pos (by omega), if_pos (by simp; omega), hvalue]

/-- Three bytes are read as one character, unless fewer would do or it is a surrogate. -/
theorem next_three (ha : a < 16) (hb : b < 64) (hd : d < 64) {v : Nat}
    (hv : a * 4096 + b * 64 + d = v) (hscalar : 0x800 ≤ v ∧ (v < 0xD800 ∨ 0xDFFF < v)) :
    next (UInt8.ofNat (a + 224)) (UInt8.ofNat (b + 128) :: UInt8.ofNat (d + 128) :: rest) =
      (.char (Char.ofNat v), 2) := by
  have hvalue : (a + 224) % 16 * 4096 + (b + 128) % 64 * 64 + (d + 128) % 64 = v := by
    have hbits : (a + 224) % 16 = a ∧ (b + 128) % 64 = b ∧ (d + 128) % 64 = d := by omega
    rw [hbits.1, hbits.2.1, hbits.2.2, hv]
  have ha' := toNat_ofNat_add (a := a) (k := 224) (by omega)
  have hb' := toNat_ofNat_add (a := b) (k := 128) (by omega)
  have hd' := toNat_ofNat_add (a := d) (k := 128) (by omega)
  simp only [next, secondByteOk, isContinuation, payload, UInt8.lt_iff_toNat_lt,
    UInt8.le_iff_toNat_le, UInt8.reduceToNat, beq_iff_eq, ← UInt8.toNat_inj, ha', hb', hd']
  rewrite [if_neg (by omega), if_neg (by omega), if_neg (by omega), if_pos (by omega), if_pos]
  · exact congrArg (fun n => (Piece.char (Char.ofNat n), 2)) hvalue
  · rw [Bool.and_eq_true]
    refine ⟨?_, by simp; omega⟩
    split_ifs <;> simp <;> omega

/-- Four bytes are read as one character, unless fewer would do or there is none of that number. -/
theorem next_four (ha : a < 8) (hb : b < 64) (hd : d < 64) (he : e < 64) {v : Nat}
    (hv : a * 262144 + b * 4096 + d * 64 + e = v) (hscalar : 0x10000 ≤ v ∧ v < 0x110000) :
    next (UInt8.ofNat (a + 240))
        (UInt8.ofNat (b + 128) :: UInt8.ofNat (d + 128) :: UInt8.ofNat (e + 128) :: rest) =
      (.char (Char.ofNat v), 3) := by
  have hvalue : (a + 240) % 8 * 262144 + (b + 128) % 64 * 4096 + (d + 128) % 64 * 64 +
      (e + 128) % 64 = v := by
    have hbits : (a + 240) % 8 = a ∧ (b + 128) % 64 = b ∧ (d + 128) % 64 = d ∧
      (e + 128) % 64 = e := by omega
    rw [hbits.1, hbits.2.1, hbits.2.2.1, hbits.2.2.2, hv]
  have ha' := toNat_ofNat_add (a := a) (k := 240) (by omega)
  have hb' := toNat_ofNat_add (a := b) (k := 128) (by omega)
  have hd' := toNat_ofNat_add (a := d) (k := 128) (by omega)
  have he' := toNat_ofNat_add (a := e) (k := 128) (by omega)
  simp only [next, secondByteOk, isContinuation, payload, UInt8.lt_iff_toNat_lt,
    UInt8.le_iff_toNat_le, UInt8.reduceToNat, beq_iff_eq, ← UInt8.toNat_inj, ha', hb', hd', he']
  rewrite [if_neg (by omega), if_neg (by omega), if_neg (by omega), if_neg (by omega),
    if_pos (by omega), if_pos]
  · exact congrArg (fun n => (Piece.char (Char.ofNat n), 3)) hvalue
  · rw [Bool.and_eq_true, Bool.and_eq_true]
    refine ⟨⟨?_, by simp; omega⟩, by simp; omega⟩
    split_ifs <;> simp <;> omega

end Encoded

/-- A character is read from the bytes that it is written with. -/
theorem next_utf8EncodeChar (c : Char) : ∃ b bs, String.utf8EncodeChar c = b :: bs ∧
    ∀ rest, next b (bs ++ rest) = (.char c, bs.length) := by
  have hchar : Char.ofNat c.val.toNat = c := Char.ofNat_toNat c
  have hvalid : c.val.toNat < 0xD800 ∨ 0xDFFF < c.val.toNat ∧ c.val.toNat < 0x110000 := c.valid
  unfold String.utf8EncodeChar
  generalize c.val.toNat = v at hchar hvalid
  rw [← hchar]
  dsimp only
  -- one case for each number of bytes
  split_ifs with h₁ h₂ h₃ <;> refine ⟨_, _, rfl, fun rest => ?_⟩
  · exact next_one (by omega)
  · rw [List.cons_append, next_two (by omega) (by omega)]
    have hv : v / 64 % 32 * 64 + v % 64 = v := by omega
    rw [hv]
    rfl
  · exact next_three (by omega) (by omega) (by omega) (by omega) (by omega)
  · exact next_four (by omega) (by omega) (by omega) (by omega) (by omega) (by omega)

/-- A text is read from its bytes. -/
theorem text_bytes (s : String) : text (bytes s) = s := by
  rw [bytes_eq, text]
  refine String.toList_inj.mp ?_
  rw [String.toList_ofList]
  induction s.toList with
  | nil => rw [List.flatMap_nil, pieces, List.map_nil]
  | cons c cs ih =>
    obtain ⟨b, bs, hc, hnext⟩ := next_utf8EncodeChar c
    rw [List.flatMap_cons, hc, List.cons_append, pieces, hnext, List.map_cons, List.drop_left, ih]
    rfl

/-- ASCII characters are written by their bytes. -/
theorem bytes_of_ascii {s : String} (hs : s.toList.all fun c => c.toNat != 0 && c.toNat < 0x80) :
    bytes s = s.toList.map Lexer.ascii :=
  eq_of_text_eq (fun c hc => by simpa using List.all_eq_true.mp hs c hc)
    (congrArg String.toList (text_bytes s))

end Text.Utf8

/-! ### Words -/

/-- A text that an identifier may consist of. -/
def IsWord (w : String) : Prop :=
  ∃ c cs, w.toList = c :: cs ∧ Lexer.isIdentStart c = true ∧ ∀ d ∈ cs, Lexer.isIdentPart d = true

theorem IsWord.isIdentPart_of_mem {w : String} (h : IsWord w) {d : Char} (hd : d ∈ w.toList) :
    Lexer.isIdentPart d = true := by
  obtain ⟨c, cs, hw, hc, hcs⟩ := h
  rw [hw] at hd
  rcases List.mem_cons.mp hd with rfl | hd
  · exact Lexer.isIdentPart_of_isIdentStart hc
  · exact hcs d hd

namespace Lexer

open Text.Utf8 (bytes bytes_eq bytes_append next_utf8EncodeChar text_bytes)

variable {bs cut source : List UInt8} {tokens ts : List Token} {t : Token} {nullable : Bool}
  {w chars : String} {c : Char}

/-- The tail of an identifier consists of letters, digits and the like. -/
theorem isIdentPart_of_mem_text (h : identTail bs = bs.length) :
    ∀ d ∈ (Text.Utf8.text bs).toList, isIdentPart d = true := by
  fun_induction identTail bs with
  | case1 => simp [Text.Utf8.text, Text.Utf8.pieces]
  | case2 b rest piece more hnext hpart ih =>
    have hle : more ≤ rest.length := by simpa [hnext] using Text.Utf8.next_snd_le b rest
    rw [Text.Utf8.text, Text.Utf8.pieces, hnext]
    rw [Text.Utf8.text] at ih
    simp only [List.length_cons, List.length_drop, String.toList_ofList, List.map_cons,
      List.forall_mem_cons] at h ih ⊢
    exact ⟨hpart, ih (by omega)⟩
  | case3 => simp at h

/-- The text of an identifier is a word. -/
theorem isWord_text (h : identifier? bs = some bs.length) : IsWord (Text.Utf8.text bs) := by
  cases bs with
  | nil => cases h
  | cons b rest =>
    obtain ⟨c, k, hnext, hstart, hlength⟩ := identifier?_cons h
    have hle : k ≤ rest.length := by simpa [hnext] using Text.Utf8.next_snd_le b rest
    have htail : identTail (rest.drop k) = (rest.drop k).length := by
      rw [List.length_cons] at hlength
      rw [List.length_drop]
      omega
    refine ⟨c, (Text.Utf8.text (rest.drop k)).toList, ?_, hstart, isIdentPart_of_mem_text htail⟩
    rw [Text.Utf8.text, Text.Utf8.pieces, hnext, Text.Utf8.text, String.toList_ofList,
      String.toList_ofList]
    rfl

/-- The identifiers of a text are words. -/
theorem isWord_of_lex (h : CSharpAudit.lex source = .ok (tokens, nullable)) (ht : t ∈ tokens)
    (hi : t.isIdent = true) : IsWord t.text := by
  obtain ⟨ts, last, rfl, hlast, hts⟩ := standsApart_lex h
  have hkind : t.kind = .ident := by simpa [Token.isIdent] using hi
  rcases List.mem_append.mp ht with ht | ht
  · have hapart := hts t ht
    obtain ⟨b, ws, lead, -, hslice, hpiece⟩ := hapart.reads
    have hread := hpiece true [] .nil
    rw [hkind, List.append_nil] at hread
    have hword := identifier?_of_piece hread
    rw [hapart.text_eq]
    refine isWord_text ?_
    rw [hslice, hword, List.length_drop, List.length_cons]
  · obtain rfl := List.mem_singleton.mp ht
    have heof : t.kind = .eof := (Prod.mk.inj hlast).1
    rw [hkind] at heof
    cases heof

/-- A word ends where something else follows. -/
theorem identTail_flatMap {cs : List Char} (hcs : ∀ d ∈ cs, isIdentPart d = true)
    (hcut : identTail cut = 0) :
    identTail (cs.flatMap String.utf8EncodeChar ++ cut) =
      (cs.flatMap String.utf8EncodeChar).length := by
  induction cs with
  | nil => exact hcut
  | cons d cs ih =>
    obtain ⟨hd, hcs⟩ := List.forall_mem_cons.mp hcs
    obtain ⟨b, bs, hbytes, hnext⟩ := next_utf8EncodeChar d
    rw [List.flatMap_cons, hbytes, List.append_assoc, List.cons_append, identTail, hnext]
    have hd : isIdentPart (Text.Utf8.Piece.char d).toChar = true := hd
    dsimp only
    rw [if_pos hd, List.drop_left, ih hcs, List.length_append, List.length_cons]

/-- A word is read as an identifier if nothing behind it goes on with it. -/
theorem identifier?_bytes (hw : IsWord w) (hcut : identTail cut = 0) :
    identifier? (bytes w ++ cut) = some (bytes w).length := by
  obtain ⟨c, cs, hw, hc, hcs⟩ := hw
  obtain ⟨b, bs, hbytes, hnext⟩ := next_utf8EncodeChar c
  rw [bytes_eq, hw, List.flatMap_cons, hbytes, List.append_assoc, List.cons_append, identifier?,
    hnext]
  have hc : isIdentStart (Text.Utf8.Piece.char c).toChar = true := hc
  dsimp only
  rw [if_pos hc, List.drop_left, identTail_flatMap hcs hcut, List.length_append, List.length_cons]

/-- White space begins no identifier. -/
theorem isBlank_eq_false (h : isIdentStart c = true) : Text.isBlank c = false := by
  -- beyond ASCII the ranges of the two tables lie apart
  have hapart : (Text.blanks.ranges.toList.all fun r => r.1.blt 0x80 ||
      Text.letters.ranges.toList.all fun r' => r.2.blt r'.1 || r'.2.blt r.1) = true := by
    decide +kernel
  have hascii : ∀ r ∈ Text.blanks.ranges.toList, r.1 < 0x80 → r.2 ≤ 0x20 := by decide
  rw [Bool.eq_false_iff, Text.isBlank, contains_eq_any]
  intro hblank
  obtain ⟨r, hr, hle⟩ := List.any_eq_true.mp hblank
  simp only [Bool.and_eq_true, decide_eq_true_eq] at hle
  by_cases hlow : r.1 < 0x80
  · have hspace := hascii r hr hlow
    have hlist : (List.range 0x21).all fun n => !isIdentStart (Char.ofNat n) := by decide
    have hnot := List.all_eq_true.mp hlist c.toNat (List.mem_range.mpr (by omega))
    rw [Char.ofNat_toNat, h] at hnot
    cases hnot
  · have hhigh : ¬c.toNat < 0x80 := by omega
    have hbar : (c == '_') = false := beq_false_of_ne (by rintro rfl; exact hhigh (by decide))
    rw [isIdentStart, hbar, Bool.false_or, Text.isLetter, if_neg hhigh, contains_eq_any] at h
    obtain ⟨r', hr', hle'⟩ := List.any_eq_true.mp h
    simp only [Bool.and_eq_true, decide_eq_true_eq] at hle'
    have hrow := List.all_eq_true.mp hapart r hr
    simp only [Bool.or_eq_true, List.all_eq_true, Nat.blt_eq] at hrow
    have := (hrow.resolve_left hlow) r' hr'
    omega

/-- No identifier begins with a byte that is none of a letter. -/
theorem isOneOf_eq_false {b : UInt8} {rest : List UInt8} {n : Nat}
    (hchars : chars.toList.all fun d =>
      ascii d < 0x80 && !isIdentStart (Char.ofNat (ascii d).toNat))
    (h : identifier? (b :: rest) = some n) : isOneOf chars b = false := by
  rw [Bool.eq_false_iff]
  intro hone
  obtain ⟨d, hd, heq⟩ := List.any_eq_true.mp hone
  obtain ⟨hlt, hstart⟩ := Bool.and_eq_true_iff.mp (List.all_eq_true.mp hchars d hd)
  exact ne_of_identifier? (of_decide_eq_true hlt) ((Bool.not_eq_true' _).mp hstart) h
    (beq_iff_eq.mp heq).symm

/-- A word is neither white space nor a comment. -/
theorem trivia?_of_identifier? {b : UInt8} {rest : List UInt8} {n : Nat} {fresh : Bool}
    (h : identifier? (b :: rest) = some n) : trivia? fresh b rest = .ok none := by
  obtain ⟨c, k, hnext, hstart, -⟩ := identifier?_cons h
  rw [trivia?_of_not_slash (ne_of_identifier? (by decide) (by decide) h)
    (isOneOf_eq_false (by decide) h), if_neg, hnext]
  · have hblank : ¬Text.isBlank (Text.Utf8.Piece.char c).toChar = true :=
      Bool.eq_false_iff.mp (isBlank_eq_false hstart)
    dsimp only
    rw [if_neg hblank, ite_self]
  · rw [Bool.and_eq_true, beq_iff_eq]
    exact fun hsign => ne_of_identifier? (d := ascii '#') (by decide) (by decide) h hsign.1

/-! ### Reading what is put together -/

/-- A text is read in full, and its tokens have a property. -/
def Lexes (bs : List UInt8) (Q : List Token → Prop) : Prop :=
  ∀ s : State, ∃ (ts : List Token) (last : Token) (nullable : Bool),
    run s bs = .ok (ts ++ [last], nullable) ∧ last.kind = .eof ∧ Q ts

variable {Q : List Token → Prop} {kind : TokenKind}

/-- What is known of the tokens may be weakened. -/
theorem Lexes.imp {R : List Token → Prop} (h : Lexes bs Q) (hR : ∀ ts, Q ts → R ts) :
    Lexes bs R := by
  intro s
  obtain ⟨ts, last, nullable, hrun, hlast, hts⟩ := h s
  exact ⟨ts, last, nullable, hrun, hlast, hR ts hts⟩

theorem lexes_nil (h : Q []) : Lexes [] Q :=
  fun s => ⟨[], _, s.nullable, by rw [run]; rfl, rfl, h⟩

/-- A space in front of a text adds no token. -/
theorem Lexes.space (h : Lexes cut Q) : Lexes (ascii ' ' :: cut) Q := by
  intro s
  have hspace : Skips s.fresh (ascii ' ') cut (.trivia 0) := .blank (by decide)
  obtain ⟨ts, last, nullable, hrun, hlast, hts⟩ := h (s.advance (.trivia 0) [ascii ' '])
  exact ⟨ts, last, nullable, run_cons_iff.mpr ⟨_, _, hspace.piece_eq, hrun, rfl⟩, hlast, hts⟩

/-- One token is read, and what stands behind it as before. -/
theorem Lexes.piece {b : UInt8} {ws : List UInt8}
    (hpiece : ∀ fresh, piece fresh b (ws ++ cut) = .ok (.token kind 0 ws.length))
    (h : Lexes cut Q) : Lexes (b :: ws ++ cut) fun ts =>
      ∃ t us, ts = t :: us ∧ t.kind = kind ∧ t.text = Text.Utf8.text (b :: ws) ∧ Q us := by
  intro s
  obtain ⟨us, last, nullable, hrun, hlast, hus⟩ := h (s.advance (.token kind 0 ws.length) (b :: ws))
  refine ⟨_ :: us, last, nullable, run_cons_iff.mpr ⟨_, _, hpiece s.fresh, ?_, rfl⟩, hlast, _, us,
    rfl, rfl, ?_, hus⟩
  · show run (s.advance _ (b :: (ws ++ cut).take ws.length)) ((ws ++ cut).drop ws.length) = _
    rw [List.take_left, List.drop_left]
    exact hrun
  · show Text.Utf8.text ((b :: (ws ++ cut).take ws.length).drop 0) = _
    rw [List.take_left, List.drop_zero]

/-- A word is read as one token: a reserved word, or else an identifier. -/
theorem Lexes.word (hw : IsWord w) (hcut : identTail cut = 0) (h : Lexes cut Q) :
    Lexes (bytes w ++ cut) fun ts => ∃ t us, ts = t :: us ∧
      t.kind = (if keywords.contains w then .keyword else .ident) ∧ t.text = w ∧ Q us := by
  have hread := identifier?_bytes hw hcut
  have htext := text_bytes w
  generalize bytes w = bs at hread htext
  cases bs with
  | nil =>
    rw [List.nil_append] at hread
    obtain ⟨hpos, -⟩ := identifier?_le hread
    cases hpos
  | cons b ws =>
    subst htext
    rw [List.cons_append] at hread
    have htake : (b :: (ws ++ cut)).take (b :: ws).length = b :: ws := by
      rw [← List.cons_append, List.take_left]
    refine Lexes.piece (fun fresh => ?_) h
    rw [(Finds.word hread).piece_eq (trivia?_of_identifier? hread), htake]
    rfl

/-- The punctuators that types are written with. -/
def typeMarks : List Char := ['<', '>', '(', ')', '[', ']', '?', '*', ',', '.']

/-- Whether a byte may go on with a punctuator: to a longer one, or to a number behind a point. -/
def joins (b d : UInt8) : Bool :=
  isDigit d || punctuators.any fun q => [b, d].isPrefixOf (q.toList.map ascii)

/-- A mark of a type is a token by itself, unless what follows joins it. -/
theorem plain_mark (hc : c ∈ typeMarks) (hjoins : ∀ d ∈ cut.head?, joins (ascii c) d = false) :
    plain (ascii c) cut = .ok (.token .punct 0 0) := by
  have hmarks : typeMarks.all fun c => !isDigit (ascii c) &&
      punctuators.contains (String.singleton c) && punctuators.all fun q =>
        q.toList.map ascii != [ascii c] || q == String.singleton c := by
    decide +kernel
  have hnonempty : punctuators.all fun q => q.toList.map ascii != [] := by decide +kernel
  have hmark := List.all_eq_true.mp hmarks c hc
  simp only [Bool.and_eq_true, Bool.not_eq_true', List.contains_iff_mem] at hmark
  obtain ⟨⟨hdigit, hmem⟩, hsame⟩ := hmark
  have hnumber : startsNumber (ascii c) cut = false := by
    rw [startsNumber, hdigit, Bool.false_or]
    cases cut with
    | nil => exact Bool.and_false _
    | cons d cut =>
      have hd := (Bool.or_eq_false_iff.mp (hjoins d rfl)).1
      simp [hd]
  -- whatever fits is the mark itself, since nothing longer does
  have hfits : ∀ q ∈ punctuators, startsWith q (ascii c :: cut) = true →
      q = String.singleton c := by
    intro q hq hstarts
    have hone := List.all_eq_true.mp hsame q hq
    rw [startsWith, List.isPrefixOf_iff_prefix] at hstarts
    rcases hbytes : q.toList.map ascii with _ | ⟨b, _ | ⟨d, bs⟩⟩
    · exact absurd (List.all_eq_true.mp hnonempty q hq) (by simp [hbytes])
    · rw [hbytes, List.cons_prefix_cons] at hstarts
      simpa [hbytes, hstarts.1] using hone
    · rw [hbytes, List.cons_prefix_cons] at hstarts
      obtain ⟨rfl, rest, rfl⟩ := hstarts
      have hnot := (Bool.or_eq_false_iff.mp (hjoins d rfl)).2
      rw [List.any_eq_false] at hnot
      exact absurd (by rw [hbytes]; simp) (hnot q hq)
  have hself : startsWith (String.singleton c) (ascii c :: cut) = true := by
    simp [startsWith]
  rw [plain_of_not_startsNumber hnumber]
  cases hfind : punctuators.find? (startsWith · (ascii c :: cut)) with
  | none => exact absurd hself (by simpa using List.find?_eq_none.mp hfind _ hmem)
  | some q =>
    obtain rfl := hfits q (List.mem_of_find?_eq_some hfind)
      (List.find?_some (p := (startsWith · (ascii c :: cut))) hfind)
    dsimp only
    rw [String.length_singleton]

/-- A punctuator of a type is read as one token if nothing behind it goes on with it. -/
theorem Lexes.mark (hc : c ∈ typeMarks) (hjoins : ∀ d ∈ cut.head?, joins (ascii c) d = false)
    (h : Lexes cut Q) : Lexes (ascii c :: cut) fun ts =>
      ∃ t us, ts = t :: us ∧ t.is (String.singleton c) = true ∧ Q us := by
  -- The marks are few, so what is known of each is computed.
  have hmarks : typeMarks.all fun c => ascii c < 0x80 &&
      !isIdentStart (Char.ofNat (ascii c).toNat) && !isOneOf "@$\"'" (ascii c) &&
      ascii c != ascii '/' && !isOneOf " \t\r\n\x0c\x0b" (ascii c) && ascii c != ascii '#' := by
    decide
  have htexts : typeMarks.all fun c => Text.Utf8.text [ascii c] == String.singleton c := by
    decide +kernel
  have htext := beq_iff_eq.mp (List.all_eq_true.mp htexts c hc)
  have hmark := List.all_eq_true.mp hmarks c hc
  simp only [Bool.and_eq_true, Bool.not_eq_true', decide_eq_true_eq, bne_iff_ne] at hmark
  obtain ⟨⟨⟨⟨⟨hlt, hstart⟩, hmark⟩, hslash⟩, hblank⟩, hsign⟩ := hmark
  have hpiece (fresh : Bool) :
      Lexer.piece fresh (ascii c) ([] ++ cut) = .ok (.token .punct 0 ([] : List UInt8).length) := by
    have hfinds : Finds (ascii c) cut (.token .punct 0 0) :=
      .plain ((identifier?_ascii hlt).mpr hstart) (marked?_of_not_mark hmark) (plain_mark hc hjoins)
    refine hfinds.piece_eq ?_
    rw [trivia?_of_not_slash hslash hblank, beq_false_of_ne hsign, Bool.false_and,
      if_neg Bool.false_ne_true, if_neg (UInt8.not_le.mpr hlt)]
  refine (Lexes.piece hpiece h).imp ?_
  rintro _ ⟨t, us, rfl, hkind, ht, hus⟩
  exact ⟨t, us, rfl, by simp [Token.is, hkind, ht, htext], hus⟩

/-! ### What may follow -/

/-- A text starts with one of some characters, or is empty. -/
def Follows (chars : String) (cut : List UInt8) : Prop := ∀ d ∈ cut.head?, isOneOf chars d = true

theorem Follows.mono {chars' : String} (h : Follows chars cut)
    (hsub : chars.toList ⊆ chars'.toList) : Follows chars' cut := by
  intro d hd
  obtain ⟨e, he, heq⟩ := List.any_eq_true.mp (h d hd)
  exact List.any_eq_true.mpr ⟨e, hsub he, heq⟩

/-- A mark may follow if it is listed. -/
theorem follows_cons (hc : isOneOf chars (ascii c) = true) (cut : List UInt8) :
    Follows chars (ascii c :: cut) := by
  rintro _ ⟨⟩
  exact hc

/-- What may follow does not join the mark in front of it. -/
theorem Follows.joins_eq (h : Follows chars cut)
    (hchars : chars.toList.all fun d => !joins (ascii c) (ascii d)) :
    ∀ d ∈ cut.head?, joins (ascii c) d = false := by
  intro d hd
  obtain ⟨e, he, heq⟩ := List.any_eq_true.mp (h d hd)
  obtain rfl := beq_iff_eq.mp heq
  simpa using List.all_eq_true.mp hchars e he

theorem identTail_cons (hc : ascii c < 0x80 && !isIdentPart (Char.ofNat (ascii c).toNat))
    (cut : List UInt8) : identTail (ascii c :: cut) = 0 := by
  obtain ⟨hlt, hpart⟩ := Bool.and_eq_true_iff.mp hc
  have hpart : ¬isIdentPart (Text.Utf8.Piece.char (Char.ofNat (ascii c).toNat)).toChar = true :=
    Bool.eq_false_iff.mp ((Bool.not_eq_true' _).mp hpart)
  rw [identTail, Text.Utf8.next_ascii (of_decide_eq_true hlt)]
  exact if_neg hpart

/-- No identifier goes on with one of the marks of a type, a blank or a grave accent. -/
theorem isIdentPart_mark (hc : c ∈ ' ' :: '\x60' :: typeMarks) : isIdentPart c = false := by
  have hmarks : (' ' :: '\x60' :: typeMarks).all fun d => !isIdentPart d := by decide +kernel
  exact Bool.eq_false_iff.mpr (by simpa using List.all_eq_true.mp hmarks c hc)

theorem identTail_mark (hc : c ∈ typeMarks) (cut : List UInt8) :
    identTail (ascii c :: cut) = 0 := by
  have hmarks : typeMarks.all fun d =>
      ascii d < 0x80 && Char.ofNat (ascii d).toNat == d := by decide
  obtain ⟨hlt, hchar⟩ := Bool.and_eq_true_iff.mp (List.all_eq_true.mp hmarks c hc)
  have hpart := isIdentPart_mark (List.mem_cons_of_mem _ (List.mem_cons_of_mem _ hc))
  refine identTail_cons ?_ cut
  rw [hlt, beq_iff_eq.mp hchar, hpart]
  rfl

/-- What may follow ends a word. -/
theorem Follows.identTail_eq (h : Follows chars cut) (hchars : chars.toList.all typeMarks.contains) :
    identTail cut = 0 := by
  cases cut with
  | nil => rw [identTail]
  | cons b rest =>
    obtain ⟨d, hd, heq⟩ := List.any_eq_true.mp (h b rfl)
    obtain rfl := beq_iff_eq.mp heq
    exact identTail_mark (List.contains_iff_mem.mp (List.all_eq_true.mp hchars d hd)) rest

/-- Nothing that a word begins with goes on with a punctuator. -/
theorem joins_eq_false {b d : UInt8} {rest : List UInt8} {n : Nat}
    (h : identifier? (d :: rest) = some n) : joins b d = false := by
  have hdigits : (List.range 58).all fun n => n < 48 || !isIdentStart (Char.ofNat n) := by decide
  have hmarks : punctuators.all fun q => q.toList.all fun c =>
      ascii c < 0x80 && !isIdentStart (Char.ofNat (ascii c).toNat) := by
    decide
  -- Only a digit or the rest of a punctuator could go on with what stands in front.
  refine Bool.or_eq_false_iff.mpr ⟨Bool.eq_false_iff.mpr fun hdigit => ?_, ?_⟩
  · obtain ⟨hlow, hhigh⟩ := Bool.and_eq_true_iff.mp hdigit
    have hlow : 48 ≤ d.toNat := of_decide_eq_true hlow
    have hhigh : d.toNat ≤ 57 := of_decide_eq_true hhigh
    have hstart := List.all_eq_true.mp hdigits d.toNat (List.mem_range.mpr (by omega))
    rw [decide_eq_false (by omega), Bool.false_or, Bool.not_eq_true'] at hstart
    exact ne_of_identifier? (UInt8.lt_iff_toNat_lt.mpr (by simp; omega)) hstart h rfl
  · refine List.any_eq_false.mpr fun q hq hprefix => ?_
    have hnot := isOneOf_eq_false (List.all_eq_true.mp hmarks q hq) h
    have hmem := (List.isPrefixOf_iff_prefix.mp hprefix).subset
      (List.mem_cons_of_mem b List.mem_cons_self)
    obtain ⟨c, hc, rfl⟩ := List.mem_map.mp hmem
    have hone : isOneOf q (ascii c) = true :=
      List.any_eq_true.mpr ⟨c, hc, beq_self_eq_true (ascii c)⟩
    exact absurd hone (Bool.eq_false_iff.mp hnot)

/-- Nothing at the head of a word goes on with a punctuator. -/
theorem joins_word (hw : IsWord w) (b : UInt8) (rest : List UInt8) :
    ∀ d ∈ (bytes w ++ rest).head?, joins b d = false := by
  obtain ⟨c, cs, hchars, hc, -⟩ := hw
  obtain ⟨d, ds, hbytes, hnext⟩ := next_utf8EncodeChar c
  rw [bytes_eq, hchars, List.flatMap_cons, hbytes]
  rintro _ ⟨⟩
  have hc : isIdentStart (Text.Utf8.Piece.char c).toChar = true := hc
  have hident : identifier? (d :: (ds ++ rest)) = some (ds.length + 1 + identTail rest) := by
    rw [identifier?, hnext]
    dsimp only
    rw [if_pos hc, List.drop_left]
  exact joins_eq_false hident

/-- A text starts with a byte-order mark only if that is its first character. -/
theorem isPrefixOf_byteOrderMark {s : String} (h : byteOrderMark.isPrefixOf (bytes s) = true) :
    s.toList.head? = some '\uFEFF' := by
  obtain ⟨rest, hrest⟩ := List.isPrefixOf_iff_prefix.mp h
  have hnext : Text.Utf8.next 0xEF (0xBB :: 0xBF :: rest) = (.char '\uFEFF', 2) := rfl
  rw [← text_bytes s, ← hrest]
  show (Text.Utf8.text (0xEF :: 0xBB :: 0xBF :: rest)).toList.head? = _
  rw [Text.Utf8.text, Text.Utf8.pieces, hnext, String.toList_ofList]
  rfl

/-- The tokens of one part of a text, with those of the rest behind them. -/
def Beside (W Q : List Token → Prop) (ts : List Token) : Prop :=
  ∃ us vs, ts = us ++ vs ∧ W us ∧ Q vs

end Lexer

end CSharpAudit
