import CSharpAudit.Metrics.Collect
import CSharpAudit.Proofs.Utf8
import CSharpAudit.Token.Lexer

/-!
# Lines with comments

The lines of code of a text are counted by a scanner of its own, which looks for comment openers
line by line and knows nothing of literals. Here a line is given together with the comments on it,
and the scanner is compared with it. On most lines the two agree. A line misleads the scanner in one
of three ways: code that starts with two slashes is taken for a comment, an opener in code or in a
line comment is taken for a block comment, and a quotation mark hides a block comment that is still
open when the line ends.

## Main definitions

* `CodeLines.Line` — the rest of a line, with the comments on it
* `CodeLines.Line.hasCode` — whether there is something besides white space and comments
* `CodeLines.Line.misleads` — whether the scanner may be misled
* `CodeLines.Lines` — the lines of a text, each of which starts where the one before it stops

## Main results

* `CodeLines.scanLine_line` — the scanner sees the code and the comments of a line
* `CodeLines.foldl_step_lines` — the scanner counts the lines with code
-/

namespace CSharpAudit

namespace Text.Utf8

variable {b d : UInt8} {bs rest xs ys : List UInt8} {c : Char} {l r : List Char}

/-- The characters of some bytes. -/
def chars (bs : List UInt8) : List Char := (text bs).toList

@[simp] theorem chars_nil : chars [] = [] := by simp [chars, text, pieces]

/-- A text is decoded character by character. -/
theorem chars_cons (b : UInt8) (rest : List UInt8) : chars (b :: rest) =
    (next b rest).1.toChar :: chars (rest.drop (next b rest).2) := by
  simp [chars, text, pieces]

theorem chars_cons_ascii (hb : b < 0x80) (rest : List UInt8) :
    chars (b :: rest) = Char.ofNat b.toNat :: chars rest := text_cons_ascii hb rest

/-- How a piece is read does not depend on what stands behind an ASCII byte. -/
theorem next_append_ascii (hd : d < 0x80) (b : UInt8) (rest more : List UInt8) :
    next b (rest ++ d :: more) = next b rest := by
  cases hnext : next b (rest ++ d :: more) with
  | mk piece n =>
    cases piece with
    | stray e =>
      have hrest := next_stray_of_prefix hnext (List.prefix_append rest (d :: more))
      exact hrest.symm
    | char c =>
      -- no byte behind the first one of the character is ASCII, so all of them stand in front
      have hn : n ≤ rest.length := by
        by_contra hlt
        have hmem : d ∈ (rest ++ d :: more).take n := by
          rw [List.take_append, List.mem_append]
          refine .inr ?_
          obtain ⟨k, hk⟩ : ∃ k, n - rest.length = k + 1 := ⟨n - rest.length - 1, by omega⟩
          rw [hk, List.take_succ_cons]
          exact List.mem_cons_self
        exact absurd hd (UInt8.not_lt.mpr (le_of_mem_take_next hnext hmem))
      have hagain := next_append hnext (rest.drop n)
      rw [List.take_append_of_le_length hn, List.take_append_drop] at hagain
      exact hagain.symm

/-- A text can be cut in front of an ASCII character. -/
theorem chars_append_ascii (hd : d < 0x80) (bs more : List UInt8) :
    chars (bs ++ d :: more) = chars bs ++ chars (d :: more) := by
  induction bs using pieces.induct with
  | case1 => simp
  | case2 b rest ih =>
    rw [List.cons_append, chars_cons, next_append_ascii hd,
      List.drop_append_of_le_length (next_snd_le b rest), ih, chars_cons b rest, List.cons_append]

/-- Where a text has an ASCII character, its bytes have the byte of that character. -/
theorem exists_bytes_of_chars_eq (hc : c.toNat ≠ 0) (hc' : c.toNat < 0x80)
    (h : chars bs = l ++ c :: r) :
    ∃ xs ys, bs = xs ++ c.toNat.toUInt8 :: ys ∧ chars ys = r := by
  induction bs using pieces.induct generalizing l with
  | case1 => simp at h
  | case2 b rest ih =>
    cases l with
    | nil =>
      obtain ⟨ys, hbs, hys⟩ := exists_cons_of_text_eq hc hc' h
      exact ⟨[], ys, hbs, hys⟩
    | cons p l =>
      rw [chars_cons, List.cons_append] at h
      obtain ⟨xs, ys, hdrop, hys⟩ := ih (List.cons.inj h).2
      refine ⟨b :: (rest.take (next b rest).2 ++ xs), ys, ?_, hys⟩
      rw [List.cons_append, List.append_assoc, ← hdrop, List.take_append_drop]

end Text.Utf8

namespace CodeLines

open Lexer (ascii)
open Text (isBlank)
open Text.Utf8 (chars)

/-! ### Cutting a line -/

section Cut

variable {a b : Char} {cs l x y z : List Char}

/-- A cut takes out the two characters that it looks for. -/
theorem eq_of_cut (h : cut a b cs = some (x, y)) : cs = x ++ a :: b :: y := by
  fun_induction cut a b cs generalizing x y with
  | case1 c d cs hcd =>
    obtain ⟨rfl, rfl⟩ : [] = x ∧ cs = y := by simpa using h
    obtain ⟨hc, hd⟩ := Bool.and_eq_true_iff.mp hcd
    rw [beq_iff_eq.mp hc, beq_iff_eq.mp hd]
    rfl
  | case2 c d cs hcd ih =>
    obtain ⟨⟨x', y'⟩, hcut, heq⟩ := Option.map_eq_some_iff.mp h
    obtain ⟨rfl, rfl⟩ : c :: x' = x ∧ y' = y := by simpa using heq
    rw [ih hcut]
    rfl
  | case3 => simp at h

/-- Behind a text without the two characters, they are found where they stand. -/
theorem cut_append (hab : a ≠ b) (h : cut a b x = none) (y : List Char) :
    cut a b (x ++ a :: b :: y) = some (x, y) := by
  fun_induction cut a b x with
  | case1 => simp at h
  | case2 c d x hcd ih =>
    rw [List.cons_append, List.cons_append, cut, if_neg hcd, ← List.cons_append,
      ih (Option.map_eq_none_iff.mp h)]
    rfl
  | case3 x hx =>
    rcases x with _ | ⟨c, _ | ⟨d, x⟩⟩
    · simp [cut]
    · simp [cut, hab]
    · exact absurd rfl (hx c d x)

/-- A cut does not look behind the place where it cuts. -/
theorem cut_append_right (h : cut a b cs = some (x, y)) (z : List Char) :
    cut a b (cs ++ z) = some (x, y ++ z) := by
  fun_induction cut a b cs generalizing x y with
  | case1 c d cs hcd =>
    obtain ⟨rfl, rfl⟩ : [] = x ∧ cs = y := by simpa using h
    rw [List.cons_append, List.cons_append, cut, if_pos hcd]
  | case2 c d cs hcd ih =>
    obtain ⟨⟨x', y'⟩, hcut, heq⟩ := Option.map_eq_some_iff.mp h
    obtain ⟨rfl, rfl⟩ : c :: x' = x ∧ y' = y := by simpa using heq
    rw [List.cons_append, List.cons_append, cut, if_neg hcd, ← List.cons_append, ih hcut]
    rfl
  | case3 => simp at h

/-- A text without the first character of an opener cannot be cut. -/
theorem cut_append_left (h : cut a b cs = some (x, y)) (hl : a ∉ l) :
    cut a b (l ++ cs) = some (l ++ x, y) := by
  induction l with
  | nil => exact h
  | cons c l ih =>
    obtain ⟨hca, hl⟩ := not_or.mp (List.mem_cons.not.mp hl)
    have hrest := ih hl
    cases hcs : l ++ cs with
    | nil =>
      rw [hcs] at hrest
      simp [cut] at hrest
    | cons d ds =>
      rw [hcs] at hrest
      rw [List.cons_append, hcs, cut, if_neg (by simp [Ne.symm hca]), hrest]
      rfl

end Cut

/-! ### Blanks at the ends of a line -/

section Blanks

variable {c : Char} {cs l r : List Char}

/-- A line without the white space at its end. -/
def trimEnd (cs : List Char) : List Char := cs.rdropWhile isBlank

/-- Trimming drops blanks on the left, then on the right. -/
theorem trim_eq (cs : List Char) : trim cs = trimEnd (cs.dropWhile isBlank) := rfl

theorem dropWhile_append_cons (hc : isBlank c = false) (l r : List Char) :
    (l ++ c :: r).dropWhile isBlank = l.dropWhile isBlank ++ c :: r := by
  induction l with
  | nil => simp [hc]
  | cons d l ih => cases hd : isBlank d <;> simp [hd, ih]

theorem trimEnd_append_cons (hc : isBlank c = false) (l r : List Char) :
    trimEnd (l ++ c :: r) = l ++ c :: trimEnd r := by
  have h := dropWhile_append_cons hc r.reverse l.reverse
  rw [trimEnd, trimEnd, List.rdropWhile, List.rdropWhile, List.reverse_append, List.reverse_cons,
    List.append_assoc, List.singleton_append, h]
  simp

/-- Blanks are dropped on both sides of a character that is none. -/
theorem trim_append_cons (hc : isBlank c = false) (l r : List Char) :
    trim (l ++ c :: r) = l.dropWhile isBlank ++ c :: trimEnd r := by
  rw [trim_eq, dropWhile_append_cons hc, trimEnd_append_cons hc]

theorem all_isBlank_eq (cs : List Char) : cs.all isBlank = (cs.dropWhile isBlank).isEmpty := by
  rw [Bool.eq_iff_iff, List.isEmpty_iff, List.dropWhile_eq_nil_iff, List.all_eq_true]

/-- A line that is not blank has a first character that is not. -/
theorem exists_eq_append_cons (h : cs.all isBlank = false) :
    ∃ l c r, cs = l ++ c :: r ∧ isBlank c = false := by
  cases hdrop : cs.dropWhile isBlank with
  | nil =>
    rw [all_isBlank_eq, hdrop] at h
    cases h
  | cons c r =>
    refine ⟨cs.takeWhile isBlank, c, r, by rw [← hdrop, List.takeWhile_append_dropWhile], ?_⟩
    have := List.head?_dropWhile_not isBlank cs
    rwa [hdrop] at this

/-- Blanks alone are trimmed to nothing. -/
theorem trim_eq_nil (h : cs.all isBlank = true) : trim cs = [] := by
  rw [all_isBlank_eq, List.isEmpty_iff] at h
  rw [trim_eq, h]
  rfl

/-- Something else than blanks is left by trimming. -/
theorem trim_ne_nil (h : cs.all isBlank = false) : trim cs ≠ [] := by
  obtain ⟨l, c, r, rfl, hc⟩ := exists_eq_append_cons h
  simp [trim_append_cons hc]

theorem trim_trimEnd (cs : List Char) : trim (trimEnd cs) = trim cs := by
  cases h : cs.all isBlank with
  | true =>
    have hnil : trimEnd cs = [] := List.rdropWhile_eq_nil_iff.mpr (List.all_eq_true.mp h)
    rw [hnil, trim_eq_nil h]
    rfl
  | false =>
    obtain ⟨l, c, r, rfl, hc⟩ := exists_eq_append_cons h
    rw [trimEnd_append_cons hc, trim_append_cons hc, trim_append_cons hc]
    exact congrArg _ (congrArg _ (List.rdropWhile_idempotent _ _))

/-- A line is its trimmed self with blanks on both sides. -/
theorem exists_eq_trim (cs : List Char) :
    ∃ l r, cs = l ++ trim cs ++ r ∧ ∀ c ∈ l, isBlank c = true := by
  obtain ⟨r, hr⟩ := List.rdropWhile_prefix isBlank (cs.dropWhile isBlank)
  refine ⟨cs.takeWhile isBlank, r, ?_, fun c hc => List.mem_takeWhile_imp hc⟩
  rw [List.append_assoc, trim_eq, trimEnd, hr, List.takeWhile_append_dropWhile]

theorem isBlank_mark (hc : c ∈ ['/', '*', '"']) : isBlank c = false := by
  have hmarks : ['/', '*', '"'].all fun d => !isBlank d := by decide +kernel
  exact Bool.eq_false_iff.mpr (by simpa using List.all_eq_true.mp hmarks c hc)

/-- What is found in a trimmed line is found in the line. -/
theorem cut_of_trim {a b : Char} {x y : List Char} (ha : isBlank a = false)
    (h : cut a b (trim cs) = some (x, y)) :
    ∃ l r, cut a b cs = some (l ++ x, y ++ r) ∧ ∀ c ∈ l, isBlank c = true := by
  obtain ⟨l, r, hcs, hl⟩ := exists_eq_trim cs
  have hmem : a ∉ l := fun hmem => by simp [hl a hmem] at ha
  refine ⟨l, r, ?_, hl⟩
  conv_lhs => rw [hcs, List.append_assoc]
  exact cut_append_left (cut_append_right h r) hmem

end Blanks

/-! ### The scanner -/

section Scanner

variable {code : Bool} {cs x rest : List Char}

/-- An empty line changes nothing. -/
theorem scanLine_nil (inBlock code : Bool) : scanLine inBlock code [] = (inBlock, code) := by
  rw [scanLine]
  rfl

/-- Inside of a comment a line without closer changes nothing. -/
theorem scanLine_stays (h : cut '*' '/' cs = none) : scanLine true code cs = (true, code) := by
  cases cs with
  | nil => exact scanLine_nil true code
  | cons c cs =>
    rw [scanLine]
    simp only [List.isEmpty_cons, Bool.false_eq_true, if_false, if_true]
    split
    · rfl
    · simp_all

/-- Behind a closer the line goes on as one that starts outside of comments. -/
theorem scanLine_closes (h : cut '*' '/' cs = some (x, rest)) :
    scanLine true code cs = scanLine false code (trim rest) := by
  cases cs with
  | nil => simp [cut] at h
  | cons c cs =>
    rw [scanLine]
    simp only [List.isEmpty_cons, Bool.false_eq_true, if_false, if_true]
    split
    · simp_all
    · simp_all

/-- Two slashes end a line. -/
theorem scanLine_slashes (h : "//".toList.isPrefixOf cs = true) :
    scanLine false code cs = (false, code) := by
  cases cs with
  | nil => simp at h
  | cons c cs =>
    rw [scanLine, if_neg (by simp), if_neg (by simp), if_pos h]

/-- A line without comments is code. -/
theorem scanLine_none (hne : cs ≠ []) (hslashes : "//".toList.isPrefixOf cs = false)
    (h : cut '/' '*' cs = none) : scanLine false code cs = (false, true) := by
  cases cs with
  | nil => exact absurd rfl hne
  | cons c cs =>
    rw [scanLine, if_neg (by simp), if_neg (by simp), if_neg (Bool.eq_false_iff.mp hslashes)]
    split
    · rfl
    · simp_all

/-- An opener with a quotation mark in front of it is taken for a part of a literal. -/
theorem scanLine_opens (hslashes : "//".toList.isPrefixOf cs = false)
    (h : cut '/' '*' cs = some (x, rest)) : scanLine false code cs =
      if x.contains '"' then (false, true) else scanLine true (code || !x.isEmpty) rest := by
  cases cs with
  | nil => simp [cut] at h
  | cons c cs =>
    rw [scanLine, if_neg (by simp), if_neg (by simp), if_neg (Bool.eq_false_iff.mp hslashes)]
    split
    · simp_all
    · rename_i before rest' hcut
      rw [h] at hcut
      obtain ⟨rfl, rfl⟩ : x = before ∧ rest = rest' := by simpa using hcut
      rfl

end Scanner

/-! ### Lines with their comments -/

/-- The rest of a line from some place on. The flags tell whether that place, and whether the end of
the line, lies inside of a block comment. -/
inductive Line : Bool → Bool → Type
  /-- Code up to the end of the line. -/
  | ends (code : List UInt8) : Line false false
  /-- Code with a line comment behind it. -/
  | comment (code body : List UInt8) : Line false false
  /-- Code with a block comment behind it. -/
  | opens {stop : Bool} (code : List UInt8) (rest : Line true stop) : Line false stop
  /-- The part of a block comment that takes up the rest of the line. -/
  | stays (body : List UInt8) : Line true true
  /-- The part of a block comment that is closed on the line. -/
  | closes {stop : Bool} (body : List UInt8) (rest : Line false stop) : Line true stop

namespace Line

variable {start stop : Bool}

/-- The bytes of the line, comments included. -/
def bytes : {start stop : Bool} → Line start stop → List UInt8
  | _, _, ends code => code
  | _, _, comment code body => code ++ ascii '/' :: ascii '/' :: body
  | _, _, opens code rest => code ++ ascii '/' :: ascii '*' :: rest.bytes
  | _, _, stays body => body
  | _, _, closes body rest => body ++ ascii '*' :: ascii '/' :: rest.bytes

/-- Whether some character outside of the comments is no white space. -/
def hasCode : {start stop : Bool} → Line start stop → Bool
  | _, _, ends code => !(chars code).all isBlank
  | _, _, comment code _ => !(chars code).all isBlank
  | _, _, opens code rest => !(chars code).all isBlank || rest.hasCode
  | _, _, stays _ => false
  | _, _, closes _ rest => rest.hasCode

/-- A block comment ends where it is closed first. -/
def Sound : {start stop : Bool} → Line start stop → Prop
  | _, _, ends _ => True
  | _, _, comment _ _ => True
  | _, _, opens _ rest => rest.Sound
  | _, _, stays body => ¬[ascii '*', ascii '/'] <:+: body
  | _, _, closes body rest => ¬[ascii '*', ascii '/'] <:+: body ∧ rest.Sound

end Line

/-- Whether a text starts with two slashes behind white space. -/
def startsWithSlashes (cs : List Char) : Bool := "//".toList.isPrefixOf (cs.dropWhile isBlank)

/-- Whether there is an opener of a block comment in a text, with no quotation mark before it. -/
def opensUnquoted (cs : List Char) : Bool := (cut '/' '*' cs).any fun p => !p.1.contains '"'

/-- Whether the scanner may take something on a line for a comment that is none, or may miss a
comment. Slashes at the head of the code on a line look like a line comment, and an opener in code
or in a line comment looks like a block comment. Behind a quotation mark the scanner looks no
further and takes the line to stop outside of comments. -/
def Line.misleads : {start stop : Bool} → Line start stop → Bool
  | _, _, .ends code => startsWithSlashes (chars code) || opensUnquoted (chars code)
  | _, _, .comment code body => !(chars code).all isBlank &&
      (startsWithSlashes (chars (code ++ ascii '/' :: ascii '/' :: body)) ||
        opensUnquoted (chars (code ++ ascii '/' :: ascii '/' :: body)))
  | _, stop, .opens code rest => startsWithSlashes (chars code ++ ['/']) ||
      opensUnquoted (chars code) || if (chars code).contains '"' then stop else rest.misleads
  | _, _, .stays _ => false
  | _, _, .closes _ rest => rest.misleads

/-! ### The scanner on a line -/

theorem chars_slash (code more : List UInt8) (b : UInt8) (hb : b < 0x80) :
    chars (code ++ ascii '/' :: b :: more) =
      chars code ++ '/' :: Char.ofNat b.toNat :: chars more := by
  rw [Text.Utf8.chars_append_ascii (by decide), Text.Utf8.chars_cons_ascii (by decide),
    Text.Utf8.chars_cons_ascii hb]
  rfl

/-- A line comment is decoded behind the code in front of it. -/
theorem chars_comment (code body : List UInt8) :
    chars (code ++ ascii '/' :: ascii '/' :: body) = chars code ++ '/' :: '/' :: chars body :=
  chars_slash code body (ascii '/') (by decide)

theorem chars_opens (code more : List UInt8) :
    chars (code ++ ascii '/' :: ascii '*' :: more) = chars code ++ '/' :: '*' :: chars more :=
  chars_slash code more (ascii '*') (by decide)

theorem chars_closes (body more : List UInt8) :
    chars (body ++ ascii '*' :: ascii '/' :: more) = chars body ++ '*' :: '/' :: chars more := by
  rw [Text.Utf8.chars_append_ascii (by decide), Text.Utf8.chars_cons_ascii (by decide),
    Text.Utf8.chars_cons_ascii (by decide)]
  rfl

/-- What stands inside of a comment does not close it. -/
theorem cut_eq_none_of_sound {body : List UInt8} (h : ¬[ascii '*', ascii '/'] <:+: body) :
    cut '*' '/' (chars body) = none := by
  rw [Option.eq_none_iff_forall_ne_some]
  rintro ⟨x, y⟩ hcut
  -- both characters are ASCII, so their bytes stand in the body one behind the other
  obtain ⟨xs, ys, rfl, hys⟩ :=
    Text.Utf8.exists_bytes_of_chars_eq (by decide) (by decide) (eq_of_cut hcut)
  obtain ⟨zs, rfl, -⟩ := Text.Utf8.exists_cons_of_text_eq (by decide) (by decide) hys
  exact h ⟨xs, zs, by simp [ascii]⟩

/-- A quotation mark is no white space. -/
theorem quote_mem_of_append {l x : List Char} (hl : ∀ c ∈ l, isBlank c = true)
    (h : '"' ∈ l ++ x) : '"' ∈ x := by
  refine (List.mem_append.mp h).resolve_left fun hmem => ?_
  have hblank := hl _ hmem
  rw [isBlank_mark (by simp)] at hblank
  cases hblank

/-- If no opener misleads, a quotation mark stands in front of each. -/
theorem quote_mem_of_opensUnquoted {cs x y : List Char} (h : opensUnquoted cs = false)
    (hcut : cut '/' '*' cs = some (x, y)) : '"' ∈ x := by
  rw [opensUnquoted, hcut] at h
  simpa using h

/-- A line without openers that starts like code is scanned as code. -/
theorem scanLine_code {code : Bool} {cs : List Char} (hcode : cs.all isBlank = false)
    (hslashes : startsWithSlashes cs = false) (hopens : opensUnquoted cs = false) :
    scanLine false code (trim cs) = (false, true) := by
  have hprefix : "//".toList.isPrefixOf (trim cs) = false := by
    refine Bool.eq_false_iff.mpr fun h => Bool.eq_false_iff.mp hslashes ?_
    have htrim : trim cs <+: cs.dropWhile isBlank := List.rdropWhile_prefix _ _
    exact List.isPrefixOf_iff_prefix.mpr ((List.isPrefixOf_iff_prefix.mp h).trans htrim)
  cases hcut : cut '/' '*' (trim cs) with
  | none => exact scanLine_none (trim_ne_nil hcode) hprefix hcut
  | some p =>
    obtain ⟨l, r, hwhole, hl⟩ := cut_of_trim (isBlank_mark (by simp)) hcut
    have hquote := quote_mem_of_append hl (quote_mem_of_opensUnquoted hopens hwhole)
    rw [scanLine_opens hprefix hcut, if_pos (List.contains_iff_mem.mpr hquote)]

/-- The first two characters of a line do not depend on what stands behind an opener. -/
theorem isPrefixOf_append_opener {x : List Char} (h : "//".toList.isPrefixOf (x ++ ['/']) = false)
    (y : List Char) : "//".toList.isPrefixOf (x ++ '/' :: '*' :: y) = false := by
  rcases x with _ | ⟨c, _ | ⟨d, x⟩⟩
  · rfl
  · simpa [List.isPrefixOf] using h
  · simpa [List.isPrefixOf] using h

/-- Code in front of a block comment: a quotation mark in it ends the scan, else the scan goes on
inside of the comment. -/
theorem scanLine_opener {code : Bool} {cs : List Char}
    (hslashes : startsWithSlashes (cs ++ ['/']) = false) (hopens : opensUnquoted cs = false)
    (y : List Char) : scanLine false code (trim (cs ++ '/' :: '*' :: y)) =
      if cs.contains '"' then (false, true)
      else scanLine true (code || !cs.all isBlank) (trimEnd y) := by
  have hslash : isBlank '/' = false := isBlank_mark (by simp)
  have hstar : isBlank '*' = false := isBlank_mark (by simp)
  have htrim : trim (cs ++ '/' :: '*' :: y) = cs.dropWhile isBlank ++ '/' :: '*' :: trimEnd y := by
    rw [trim_append_cons hslash]
    exact congrArg _ (congrArg _ (trimEnd_append_cons hstar [] y))
  have hprefix : "//".toList.isPrefixOf (cs.dropWhile isBlank ++ '/' :: '*' :: trimEnd y) = false := by
    refine isPrefixOf_append_opener ?_ _
    rwa [startsWithSlashes, dropWhile_append_cons hslash] at hslashes
  have hcs : cs = cs.takeWhile isBlank ++ cs.dropWhile isBlank :=
    List.takeWhile_append_dropWhile.symm
  have hblank : ∀ c ∈ cs.takeWhile isBlank, isBlank c = true := fun c hc => List.mem_takeWhile_imp hc
  have hmem : '/' ∉ cs.takeWhile isBlank := fun hmem => by simp [hblank _ hmem] at hslash
  rw [htrim, all_isBlank_eq]
  cases hcut : cut '/' '*' (cs.dropWhile isBlank) with
  | none =>
    have hquote : (cs.dropWhile isBlank).contains '"' = cs.contains '"' := by
      rw [Bool.eq_iff_iff, List.contains_iff_mem, List.contains_iff_mem]
      refine ⟨fun h => (List.dropWhile_sublist _).subset h, fun h => ?_⟩
      rw [hcs] at h
      exact quote_mem_of_append hblank h
    rw [scanLine_opens hprefix (cut_append (by decide) hcut _), hquote]
  | some p =>
    -- an opener in the code has a quotation mark before it, which ends the scan
    have hwhole := cut_append_left hcut hmem
    rw [← hcs] at hwhole
    have hquote := quote_mem_of_append hblank (quote_mem_of_opensUnquoted hopens hwhole)
    have hquote' : '"' ∈ cs := by
      rw [hcs, eq_of_cut hcut]
      simp [hquote]
    rw [scanLine_opens hprefix (cut_append_right hcut _), if_pos (List.contains_iff_mem.mpr hquote),
      if_pos (List.contains_iff_mem.mpr hquote')]

/-- A line that is trimmed on both sides, or inside of a comment at its end only. -/
def Trimmed (start : Bool) (cs ds : List Char) : Prop :=
  ds = trim cs ∨ start = true ∧ ds = trimEnd cs

/-- Trimming brings in no opener. -/
theorem Trimmed.cut_eq_none {start : Bool} {a b : Char} {cs ds : List Char}
    (h : Trimmed start cs ds) (ha : isBlank a = false) (hcut : cut a b cs = none) :
    cut a b ds = none := by
  rw [Option.eq_none_iff_forall_ne_some] at hcut ⊢
  rintro ⟨x, y⟩ hds
  rcases h with rfl | ⟨-, rfl⟩
  · obtain ⟨l, r, hcs, -⟩ := cut_of_trim ha hds
    exact hcut _ hcs
  · obtain ⟨r, hr⟩ := List.rdropWhile_prefix isBlank cs
    have hcs := cut_append_right hds r
    rw [trimEnd, hr] at hcs
    exact hcut _ hcs

/-- What stands behind the end of a comment is trimmed at its end. -/
theorem Trimmed.exists_closer {start : Bool} {cs ds y : List Char}
    (h : Trimmed start (cs ++ '*' :: '/' :: y) ds) (hcut : cut '*' '/' cs = none) :
    ∃ x, ds = x ++ '*' :: '/' :: trimEnd y ∧ cut '*' '/' x = none := by
  have hstar : isBlank '*' = false := isBlank_mark (by simp)
  have hbehind : trimEnd ('/' :: y) = '/' :: trimEnd y :=
    trimEnd_append_cons (isBlank_mark (by simp)) [] y
  rcases h with rfl | ⟨-, rfl⟩
  · refine ⟨cs.dropWhile isBlank, by rw [trim_append_cons hstar, hbehind], ?_⟩
    rw [Option.eq_none_iff_forall_ne_some] at hcut ⊢
    rintro ⟨x, y⟩ hdrop
    have hmem : '*' ∉ cs.takeWhile isBlank := fun hmem => by
      rw [List.mem_takeWhile_imp hmem] at hstar
      cases hstar
    have hcs := cut_append_left hdrop hmem
    rw [List.takeWhile_append_dropWhile] at hcs
    exact hcut _ hcs
  · exact ⟨cs, by rw [trimEnd_append_cons hstar, hbehind], hcut⟩

/-- The scanner tells of a line that does not mislead whether it holds code and whether it stops
inside of a block comment. -/
theorem scanLine_line {start stop : Bool} (l : Line start stop) (hsound : l.Sound)
    (h : l.misleads = false) (code : Bool) {cs : List Char} (hcs : Trimmed start (chars l.bytes) cs) :
    scanLine start code cs = (stop, code || l.hasCode) := by
  induction l generalizing code cs with
  | ends code' =>
    obtain rfl : cs = trim (chars code') := hcs.resolve_right (by simp)
    simp only [Line.misleads, Bool.or_eq_false_iff] at h
    cases hcode : (chars code').all isBlank with
    | true => simp [trim_eq_nil hcode, scanLine_nil, Line.hasCode, hcode]
    | false => simp [scanLine_code hcode h.1 h.2, Line.hasCode, hcode]
  | comment code' body =>
    obtain rfl : cs = trim (chars (code' ++ ascii '/' :: ascii '/' :: body)) :=
      hcs.resolve_right (by simp)
    cases hcode : (chars code').all isBlank with
    | true =>
      -- the line is a comment from its first character on
      have hslash : isBlank '/' = false := isBlank_mark (by simp)
      have hblank := all_isBlank_eq (chars code')
      rw [hcode] at hblank
      have hnil : (chars code').dropWhile isBlank = [] := List.isEmpty_iff.mp hblank.symm
      have htrim : trim (chars (code' ++ ascii '/' :: ascii '/' :: body)) =
          '/' :: '/' :: trimEnd (chars body) := by
        rw [chars_comment, trim_append_cons hslash, hnil]
        exact congrArg (List.cons '/') (trimEnd_append_cons hslash [] _)
      rw [htrim, scanLine_slashes (by simp)]
      simp [Line.hasCode, hcode]
    | false =>
      simp only [Line.misleads, hcode, Bool.not_false, Bool.true_and, Bool.or_eq_false_iff] at h
      have hline : (chars (code' ++ ascii '/' :: ascii '/' :: body)).all isBlank = false := by
        rw [chars_comment, List.all_append, hcode, Bool.false_and]
      simp [scanLine_code hline h.1 h.2, Line.hasCode, hcode]
  | @opens stop code' rest ih =>
    -- the scan goes on inside of the comment, unless a quotation mark ends it
    obtain rfl : cs = trim (chars (code' ++ ascii '/' :: ascii '*' :: rest.bytes)) :=
      hcs.resolve_right (by simp)
    simp only [Line.misleads, Bool.or_eq_false_iff] at h
    obtain ⟨⟨hslashes, hopens⟩, hrest⟩ := h
    rw [chars_opens, scanLine_opener hslashes hopens]
    cases hquote : (chars code').contains '"' with
    | true =>
      have hcode : (chars code').all isBlank = false := by
        refine Bool.eq_false_iff.mpr fun hall => ?_
        have := List.all_eq_true.mp hall _ (List.contains_iff_mem.mp hquote)
        rw [isBlank_mark (by simp)] at this
        cases this
      rw [hquote, if_pos rfl] at hrest
      simp [Line.hasCode, hcode, hrest]
    | false =>
      rw [hquote, if_neg Bool.false_ne_true] at hrest
      rw [if_neg Bool.false_ne_true, ih hsound hrest _ (.inr ⟨rfl, rfl⟩), Line.hasCode, Bool.or_assoc]
  | stays body =>
    have hcut := hcs.cut_eq_none (isBlank_mark (by simp)) (cut_eq_none_of_sound hsound)
    rw [scanLine_stays hcut, Line.hasCode, Bool.or_false]
  | @closes stop body rest ih =>
    -- behind the comment the scanner trims the line again, which changes nothing
    rw [Line.bytes, chars_closes] at hcs
    obtain ⟨x, rfl, hx⟩ := hcs.exists_closer (cut_eq_none_of_sound hsound.1)
    rw [scanLine_closes (cut_append (by decide) hx _), trim_trimEnd]
    exact ih hsound.2 h code (.inl rfl)

/-! ### Lines of a text -/

/-- The lines of a text from some place on. Each of them starts inside of a block comment if the one
before it stops there. -/
inductive Lines : Bool → Type
  | last {start stop : Bool} (l : Line start stop) : Lines start
  | cons {start stop : Bool} (l : Line start stop) (behind : Lines stop) : Lines start

namespace Lines

variable {start : Bool} {L : Lines start}

/-- The bytes of the text. -/
def bytes : {start : Bool} → Lines start → List UInt8
  | _, last l => l.bytes
  | _, cons l behind => l.bytes ++ newline :: behind.bytes

/-- The number of lines with code. -/
def codeCount : {start : Bool} → Lines start → Nat
  | _, last l => if l.hasCode then 1 else 0
  | _, cons l behind => (if l.hasCode then 1 else 0) + behind.codeCount

/-- Whether one of the lines misleads the scanner. -/
def misleads : {start : Bool} → Lines start → Bool
  | _, last l => l.misleads
  | _, cons l behind => l.misleads || behind.misleads

/-- A line is a line of its own, and block comments end where they are closed first. -/
def Sound : {start : Bool} → Lines start → Prop
  | _, last l => l.Sound ∧ newline ∉ l.bytes
  | _, cons l behind => (l.Sound ∧ newline ∉ l.bytes) ∧ behind.Sound

/-- The scanner splits the text into its lines and counts those with code. -/
theorem foldl_step_lines (hsound : L.Sound) (h : L.misleads = false) (n : Nat) :
    ((CodeLines.lines (chars L.bytes)).foldl step (start, n)).2 = n + L.codeCount := by
  -- No line has a break in it, so that splitting the text gives the lines back.
  have hmem {bs : List UInt8} (hbs : newline ∉ bs) : '\n' ∉ chars bs := fun hmem => by
    obtain ⟨l, r, hsplit⟩ := List.append_of_mem hmem
    obtain ⟨xs, ys, rfl, -⟩ := Text.Utf8.exists_bytes_of_chars_eq (by decide) (by decide) hsplit
    exact hbs (by simp [newline])
  have hstep {start stop : Bool} (l : Line start stop) (hl : l.Sound) (hm : l.misleads = false)
      (n : Nat) : step (start, n) (chars l.bytes) = (stop, n + if l.hasCode then 1 else 0) := by
    rw [step, scanLine_line l hl hm false (.inl rfl), Bool.false_or]
    cases l.hasCode <;> rfl
  -- along the lines, each of which starts in the state that the line before it leaves
  induction L generalizing n with
  | last l =>
    rw [CodeLines.lines, bytes, List.splitOn_eq_singleton (hmem hsound.2), List.foldl_cons,
      hstep l hsound.1 h]
    rfl
  | cons l behind ih =>
    obtain ⟨hl, hbehind⟩ := Bool.or_eq_false_iff.mp h
    have hbytes : chars (l.bytes ++ newline :: behind.bytes) =
        chars l.bytes ++ '\n' :: chars behind.bytes := by
      rw [Text.Utf8.chars_append_ascii (by decide), Text.Utf8.chars_cons_ascii (by decide)]
      rfl
    have hrest := ih hsound.2 hbehind (n + if l.hasCode then 1 else 0)
    rw [CodeLines.lines] at hrest
    rw [CodeLines.lines, bytes, hbytes,
      List.splitOn_append_cons_self_of_not_mem (hmem hsound.1.2), List.foldl_cons,
      hstep l hsound.1.1 hl, hrest, codeCount, Nat.add_assoc]

end Lines

end CodeLines

end CSharpAudit
