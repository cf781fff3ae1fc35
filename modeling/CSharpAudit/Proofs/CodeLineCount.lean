import CSharpAudit.Proofs.CommentedLines
import CSharpAudit.Proofs.Trivia

/-!
# Lines of code and the lexer

The lexer tells where the comments of a text begin and end. Cut at its pieces, a text becomes lines
that are given together with their comments, and the lines of code can be counted on them. The count
is compared with that of the line scanner: they agree on each text without a line that misleads the
scanner, and not on every text.

## Main definitions

* `Lexer.commentedLines` — the lines of a text, with the comments as the lexer finds them
* `lexedLines` — the same for a whole source text, which may start with a byte-order mark

## Main results

* `lexedLines_bytes`, `lexedLines_sound` — the lines make up the text
* `codeLines_agree` — the line scanner counts what the lexer takes for code
-/

namespace CSharpAudit

namespace CodeLines

open Lexer (ascii startsWith)

variable {start stop : Bool} {b : UInt8} {bs body : List UInt8}

/-! ### A text in front of some lines -/

namespace Line

/-- A line on which nothing stands. -/
def empty : (start : Bool) → Line start start
  | false => ends []
  | true => stays []

/-- A line with one more byte at its head. -/
def prepend (b : UInt8) : {start stop : Bool} → Line start stop → Line start stop
  | _, _, ends code => ends (b :: code)
  | _, _, comment code body => comment (b :: code) body
  | _, _, opens code rest => opens (b :: code) rest
  | _, _, stays body => stays (b :: body)
  | _, _, closes body rest => closes (b :: body) rest

/-- A line that ends at once, with a line comment at its head. -/
def commented (body : List UInt8) : {stop : Bool} → Line false stop → Line false stop
  | _, ends code => comment [] (body ++ code)
  | _, l => l

/-- The part of a block comment at the head of a line. -/
def inside : {stop : Bool} → Line true stop → List UInt8
  | _, stays body => body
  | _, closes body _ => body

@[simp] theorem bytes_empty (start : Bool) : (empty start).bytes = [] := by cases start <;> rfl

theorem sound_empty (start : Bool) : (empty start).Sound := by
  cases start with
  | false => trivial
  | true => exact fun h => by simpa using h.length_le

@[simp] theorem bytes_prepend (b : UInt8) (l : Line start stop) :
    (l.prepend b).bytes = b :: l.bytes := by
  cases l <;> rfl

/-- A byte of code keeps a line sound. -/
theorem sound_prepend (b : UInt8) {l : Line false stop} (h : l.Sound) : (l.prepend b).Sound := by
  cases l <;> exact h

@[simp] theorem inside_prepend (b : UInt8) (l : Line true stop) :
    (l.prepend b).inside = b :: l.inside := by
  cases l <;> rfl

/-- A byte that closes no comment can be put at the head of a line inside of one. -/
theorem sound_prepend_inside {l : Line true stop} (h : l.Sound)
    (hb : ¬[ascii '*', ascii '/'] <:+: b :: l.inside) : (l.prepend b).Sound := by
  cases l with
  | stays => exact hb
  | closes => exact ⟨hb, h.2⟩

/-- So does a comment in front of a line. -/
theorem sound_commented (body : List UInt8) {l : Line false stop} (h : l.Sound) :
    (l.commented body).Sound := by
  cases l with
  | ends => trivial
  | comment => exact h
  | opens => exact h

/-- Only a line without comments has no bytes. -/
theorem bytes_commented {l : Line false stop} (h : l.bytes = []) (body : List UInt8) :
    (l.commented body).bytes = ascii '/' :: ascii '/' :: body := by
  cases l with
  | ends code =>
    obtain rfl : code = [] := h
    simp [commented, bytes]
  | comment => simp [bytes] at h
  | opens => simp [bytes] at h

end Line

namespace Lines

variable {start' : Bool} {L : Lines start}

/-- Changes the first of some lines. -/
def mapHead (f : {stop : Bool} → Line start stop → Line start' stop) : Lines start → Lines start'
  | last l => last (f l)
  | cons l behind => cons (f l) behind

/-- One more byte in front. -/
def push (b : UInt8) (L : Lines start) : Lines start :=
  if b == newline then cons (Line.empty start) L else L.mapHead (Line.prepend b)

/-- Some bytes in front, none of which opens or closes a comment. -/
def pushAll (bs : List UInt8) (L : Lines start) : Lines start := bs.foldr push L

/-- A line comment in front of the end of a line. -/
def lineComment (body : List UInt8) (L : Lines false) : Lines false :=
  L.mapHead (Line.commented body)

/-- A block comment in front. -/
def blockComment (body : List UInt8) (L : Lines false) : Lines false :=
  ((L.mapHead (Line.closes [])).pushAll body).mapHead (Line.opens [])

/-- A piece of a source text in front: a comment if it begins like one, else code. -/
def place (bs : List UInt8) (L : Lines false) : Lines false :=
  if startsWith "//" bs then L.lineComment (bs.drop 2)
  else if startsWith "/*" bs then L.blockComment ((bs.drop 2).rdrop 2)
  else L.pushAll bs

/-- The part of a block comment at the head of some lines. -/
def inside : Lines true → List UInt8
  | last l => l.inside
  | cons l _ => l.inside

/-! ### The bytes of the lines -/

/-- What is put in front of the first line is put in front of all. -/
theorem bytes_mapHead (bs : List UInt8) {f : {stop : Bool} → Line start stop → Line start' stop}
    (hf : ∀ {stop} (l : Line start stop), (f l).bytes = bs ++ l.bytes) (L : Lines start) :
    (L.mapHead f).bytes = bs ++ L.bytes := by
  cases L with
  | last l => exact hf l
  | cons l behind => simp [mapHead, bytes, hf]

@[simp] theorem bytes_push (b : UInt8) (L : Lines start) : (L.push b).bytes = b :: L.bytes := by
  rw [push]
  split
  · rename_i hb
    simp [bytes, beq_iff_eq.mp hb]
  · exact bytes_mapHead [b] (Line.bytes_prepend b) L

/-- Several bytes are put in front of the lines one after the other. -/
@[simp] theorem bytes_pushAll (bs : List UInt8) (L : Lines start) :
    (L.pushAll bs).bytes = bs ++ L.bytes := by
  induction bs with
  | nil => rfl
  | cons b bs ih => exact (bytes_push b _).trans (congrArg _ ih)

/-- A line comment stands in front of the end of its line. -/
theorem bytes_lineComment {L : Lines false} (hsound : L.Sound)
    (hend : ∀ d ∈ L.bytes.head?, d = newline) (body : List UInt8) :
    (L.lineComment body).bytes = ascii '/' :: ascii '/' :: (body ++ L.bytes) := by
  -- a line without line ends, in front of a line end, has no bytes
  have hempty {stop : Bool} {l : Line false stop} (more : List UInt8) (hl : newline ∉ l.bytes)
      (hend : ∀ d ∈ (l.bytes ++ more).head?, d = newline) : l.bytes = [] := by
    cases hbytes : l.bytes with
    | nil => rfl
    | cons d ds =>
      rw [hbytes] at hl hend
      exact absurd (hend d rfl) fun hd => hl (by simp [hd])
  cases L with
  | last l =>
    have hl : l.bytes = [] := hempty [] hsound.2 (by simpa [bytes] using hend)
    simp [lineComment, mapHead, bytes, Line.bytes_commented hl, hl]
  | cons l behind =>
    have hl := hempty _ hsound.1.2 hend
    simp [lineComment, mapHead, bytes, Line.bytes_commented hl, hl]

/-- A block comment is put in front of the lines with both of its marks. -/
theorem bytes_blockComment (body : List UInt8) (L : Lines false) :
    (L.blockComment body).bytes =
      ascii '/' :: ascii '*' :: (body ++ ascii '*' :: ascii '/' :: L.bytes) := by
  have hopens := bytes_mapHead [ascii '/', ascii '*'] (f := Line.opens []) fun _ => rfl
  have hcloses := bytes_mapHead [ascii '*', ascii '/'] (f := Line.closes []) fun _ => rfl
  rw [blockComment, hopens, bytes_pushAll, hcloses]
  rfl

/-! ### Soundness of the lines -/

/-- The lines stay sound if the first one does. -/
theorem sound_mapHead {f : {stop : Bool} → Line start stop → Line start' stop}
    (hf : ∀ {stop} (l : Line start stop), l.Sound ∧ newline ∉ l.bytes →
      (f l).Sound ∧ newline ∉ (f l).bytes)
    (h : L.Sound) : (L.mapHead f).Sound := by
  cases L with
  | last l => exact hf l h
  | cons l behind => exact ⟨hf l h.1, h.2⟩

theorem sound_push {L : Lines false} (b : UInt8) (h : L.Sound) : (L.push b).Sound := by
  rw [push]
  split
  · exact ⟨⟨Line.sound_empty false, by simp⟩, h⟩
  · rename_i hb
    refine sound_mapHead (fun l hl => ⟨Line.sound_prepend b hl.1, ?_⟩) h
    simpa [hl.2] using Ne.symm (by simpa using hb)

/-- Bytes of code keep the lines sound. -/
theorem sound_pushAll {L : Lines false} (bs : List UInt8) (h : L.Sound) : (L.pushAll bs).Sound := by
  induction bs with
  | nil => exact h
  | cons b bs ih => exact sound_push b ih

/-- A byte that closes no comment can be put in front of lines that start inside of one. -/
theorem sound_push_inside {L : Lines true} (h : L.Sound)
    (hb : ¬[ascii '*', ascii '/'] <:+: b :: L.inside) : (L.push b).Sound := by
  rw [push]
  split
  · exact ⟨⟨Line.sound_empty true, by simp⟩, h⟩
  · rename_i hne
    have hne : newline ≠ b := Ne.symm (by simpa using hne)
    cases L with
    | last l => exact ⟨Line.sound_prepend_inside h.1 hb, by simp [hne, h.2]⟩
    | cons l behind => exact ⟨⟨Line.sound_prepend_inside h.1.1 hb, by simp [hne, h.1.2]⟩, h.2⟩

/-- What stands inside of a comment is a part of its body. -/
theorem inside_push_prefix {L : Lines true} (b : UInt8) (h : L.inside <+: body) :
    (L.push b).inside <+: b :: body := by
  rw [push]
  split
  · exact List.nil_prefix
  · cases L with
    | last l => simpa [mapHead, inside] using h
    | cons l behind => simpa [mapHead, inside] using h

/-- What stands in a block comment up to its end does not close it, and so no line of it does. -/
theorem sound_pushAll_inside {L : Lines true} (h : L.Sound) (hin : L.inside = [])
    (hbody : ¬[ascii '*', ascii '/'] <:+: body) :
    (L.pushAll body).Sound ∧ (L.pushAll body).inside <+: body := by
  induction body with
  | nil => exact ⟨h, hin.symm ▸ List.prefix_rfl⟩
  | cons b body ih =>
    -- what the first line has of the comment is a prefix of the comment, so it does not close it
    obtain ⟨hsound, hprefix⟩ := ih fun hmem => hbody (hmem.trans (List.suffix_cons b body).isInfix)
    have hhead : b :: (L.pushAll body).inside <+: b :: body := (List.prefix_cons_inj b).mpr hprefix
    exact ⟨sound_push_inside hsound fun hmem => hbody (hmem.trans hhead.isInfix),
      inside_push_prefix b hprefix⟩

/-- A comment up to the end of its line keeps the lines sound. -/
theorem sound_lineComment {L : Lines false} (h : L.Sound) (hbody : newline ∉ body) :
    (L.lineComment body).Sound := by
  refine sound_mapHead (fun l hl => ⟨Line.sound_commented body hl.1, ?_⟩) h
  cases l with
  | ends code =>
    have hcode : newline ∉ body ++ code := fun hmem => (List.mem_append.mp hmem).elim hbody hl.2
    simpa [Line.commented, Line.bytes, newline, ascii] using hcode
  | comment => exact hl.2
  | opens => exact hl.2

/-- A comment that does not close too early keeps the lines sound. -/
theorem sound_blockComment {L : Lines false} (h : L.Sound)
    (hbody : ¬[ascii '*', ascii '/'] <:+: body) : (L.blockComment body).Sound := by
  have hcloses : (L.mapHead (Line.closes [])).Sound :=
    sound_mapHead (fun l hl => ⟨⟨fun h => by simpa using h.length_le, hl.1⟩,
      by simpa [Line.bytes, newline, ascii] using hl.2⟩) h
  have hinside : (L.mapHead (Line.closes [])).inside = [] := by cases L <;> rfl
  exact sound_mapHead (fun l hl => ⟨hl.1, by simpa [Line.bytes, newline, ascii] using hl.2⟩)
    (sound_pushAll_inside hcloses hinside hbody).1

end Lines

end CodeLines

namespace Lexer

open CodeLines

variable {fresh : Bool} {b : UInt8} {rest bs needle : List UInt8} {p : Piece} {n : Nat}

/-! ### The lines of a text -/

/-- The lines of a text, with the comments where the lexer finds them. If the lexer finds a fault,
the text is code from there on. -/
def commentedLines (fresh : Bool) : List UInt8 → Lines false
  | [] => .last (Line.empty false)
  | b :: rest =>
    match piece fresh b rest with
    | .error _ => (Lines.last (Line.empty false)).pushAll (b :: rest)
    | .ok p =>
      let bs := b :: rest.take p.more
      (commentedLines (bs.foldl freshAfter fresh) (rest.drop p.more)).place bs
termination_by bs => bs.length

theorem startsWith_of_take {s : String} (h : startsWith s (b :: rest.take n) = true) :
    startsWith s (b :: rest) = true :=
  List.isPrefixOf_iff_prefix.mpr ((List.isPrefixOf_iff_prefix.mp h).trans
    ((List.prefix_cons_inj b).mpr (List.take_prefix n rest)))

/-- What is looked for does not occur before it is found. -/
theorem not_infix_of_indexOf? (hne : needle ≠ []) (h : indexOf? needle bs = some n) :
    ¬needle <:+: bs.take n := by
  induction bs generalizing n with
  | nil => simpa using hne
  | cons b rest ih =>
    rw [indexOf?] at h
    split at h
    · obtain rfl := Option.some.inj h
      simpa using hne
    · rename_i hprefix
      obtain ⟨m, hm, rfl⟩ := Option.map_eq_some_iff.mp h
      -- an occurrence begins at the first byte, which was looked at, or behind it
      rw [List.take_succ_cons, List.infix_cons_iff]
      rintro (hhead | hmem)
      · have htake : b :: rest.take m <+: b :: rest :=
          (List.prefix_cons_inj b).mpr (List.take_prefix m rest)
        exact hprefix (List.isPrefixOf_iff_prefix.mpr (hhead.trans htake))
      · exact ih hm hmem

/-- A block comment that the lexer reads is closed. -/
theorem exists_indexOf?_of_piece (h : piece fresh (ascii '/') (ascii '*' :: rest) = .ok p) :
    ∃ n, indexOf? [ascii '*', ascii '/'] rest = some n := by
  cases hindex : indexOf? [ascii '*', ascii '/'] rest with
  | some n => exact ⟨n, rfl⟩
  | none =>
    have hline : ¬startsWith "//" (ascii '/' :: ascii '*' :: rest) = true := by
      rw [startsWith_two (c := '/') (d := '/') rfl]
      simp [ascii]
    have hcomment : startsWith "/*" (ascii '/' :: ascii '*' :: rest) = true :=
      (startsWith_two (c := '/') (d := '*') rfl).mpr ⟨rfl, rest, rfl⟩
    have htrivia : trivia? fresh (ascii '/') (ascii '*' :: rest) =
        .error ⟨0, .unterminatedComment⟩ := by
      rw [trivia?, if_neg (by decide), if_neg hline, if_pos hcomment, List.drop_succ_cons,
        List.drop_zero, hindex]
    rw [piece, htrivia] at h
    cases h

/-- A line comment stands in front of the end of its line. -/
theorem placed_line {L : Lines false} (hsound : L.Sound)
    (hbytes : L.bytes = rest.dropWhile (· != newline)) :
    (L.lineComment (rest.takeWhile (· != newline))).Sound ∧
      (L.lineComment (rest.takeWhile (· != newline))).bytes =
        ascii '/' :: ascii '/' :: rest := by
  have hend : ∀ d ∈ L.bytes.head?, d = newline := fun d hd => by
    rw [hbytes] at hd
    simpa using head?_dropWhile hd
  have hbody : newline ∉ rest.takeWhile (· != newline) := fun hmem => by
    simpa using List.mem_takeWhile_imp hmem
  refine ⟨Lines.sound_lineComment hsound hbody, ?_⟩
  rw [Lines.bytes_lineComment hsound hend, hbytes, List.takeWhile_append_dropWhile]

/-- A block comment ends where it is closed first. -/
theorem placed_comment {L : Lines false} (hsound : L.Sound)
    (hindex : indexOf? [ascii '*', ascii '/'] rest = some n)
    (hbytes : L.bytes = rest.drop (n + 2)) :
    (L.blockComment (rest.take n)).Sound ∧
      (L.blockComment (rest.take n)).bytes = ascii '/' :: ascii '*' :: rest := by
  refine ⟨Lines.sound_blockComment hsound (not_infix_of_indexOf? (by simp) hindex), ?_⟩
  have htake : rest.take (n + 2) = rest.take n ++ [ascii '*', ascii '/'] := take_of_indexOf? hindex
  have hsplit := List.take_append_drop (n + 2) rest
  rw [htake, ← hbytes, List.append_assoc] at hsplit
  rw [Lines.bytes_blockComment]
  exact congrArg _ (congrArg _ hsplit)

/-- Each piece is put in front as the bytes it consists of. -/
theorem placed_piece (h : piece fresh b rest = .ok p) {L : Lines false} (hsound : L.Sound)
    (hbytes : L.bytes = rest.drop p.more) :
    (L.place (b :: rest.take p.more)).Sound ∧
      (L.place (b :: rest.take p.more)).bytes = b :: rest := by
  rw [Lines.place]
  -- the first two bytes tell which piece the lexer has read
  split
  · rename_i hline
    obtain ⟨rfl, r, rfl⟩ := (startsWith_two (c := '/') (d := '/') rfl).mp (startsWith_of_take hline)
    obtain rfl := Except.ok.inj (h.symm.trans Skips.line.piece_eq)
    rw [more_lineComment, List.drop_succ_cons, drop_length_takeWhile] at hbytes
    rw [more_lineComment, List.take_succ_cons, take_length_takeWhile]
    exact placed_line hsound hbytes
  split
  · rename_i hcomment
    obtain ⟨rfl, r, rfl⟩ :=
      (startsWith_two (c := '/') (d := '*') rfl).mp (startsWith_of_take hcomment)
    obtain ⟨n, hindex⟩ := exists_indexOf?_of_piece h
    obtain rfl := Except.ok.inj (h.symm.trans (Skips.comment hindex).piece_eq)
    have htake : r.take (n + 2) = r.take n ++ [ascii '*', ascii '/'] := take_of_indexOf? hindex
    have hbody : (r.take (n + 2)).rdrop 2 = r.take n := by
      rw [htake, List.rdrop, List.length_append]
      exact List.take_left
    rw [Piece.more, List.take_succ_cons, List.drop_succ_cons, List.drop_succ_cons, List.drop_zero,
      hbody]
    exact placed_comment hsound hindex hbytes
  · refine ⟨Lines.sound_pushAll _ hsound, ?_⟩
    rw [Lines.bytes_pushAll, hbytes, List.cons_append, List.take_append_drop]

/-- The lines of a text are sound and make up the text. -/
theorem commentedLines_spec (fresh : Bool) (bs : List UInt8) :
    (commentedLines fresh bs).Sound ∧ (commentedLines fresh bs).bytes = bs := by
  fun_induction commentedLines fresh bs with
  | case1 => exact ⟨⟨Line.sound_empty false, by simp⟩, rfl⟩
  | case2 fresh b rest f h =>
    have hempty : (Lines.last (Line.empty false)).Sound := ⟨Line.sound_empty false, by simp⟩
    exact ⟨Lines.sound_pushAll _ hempty, by simp [Lines.bytes]⟩
  | case3 fresh b rest p h bs ih => exact placed_piece h ih.1 ih.2

end Lexer

/-- The lines of a source text, with the comments where the lexer finds them. A byte-order mark in
front is neither white space nor part of a comment. -/
def lexedLines (source : List UInt8) : CodeLines.Lines false :=
  if Lexer.byteOrderMark.isPrefixOf source then
    (Lexer.commentedLines false (source.drop 3)).pushAll Lexer.byteOrderMark
  else Lexer.commentedLines true source

/-- The lines that are counted are sound. -/
theorem lexedLines_sound (source : List UInt8) : (lexedLines source).Sound := by
  rw [lexedLines]
  split
  · exact CodeLines.Lines.sound_pushAll _ (Lexer.commentedLines_spec false _).1
  · exact (Lexer.commentedLines_spec true source).1

theorem lexedLines_bytes (source : List UInt8) : (lexedLines source).bytes = source := by
  rw [lexedLines]
  split
  · rename_i hmark
    obtain ⟨rest, rfl⟩ := List.isPrefixOf_iff_prefix.mp hmark
    rw [CodeLines.Lines.bytes_pushAll, (Lexer.commentedLines_spec false _).2]
    rfl
  · exact (Lexer.commentedLines_spec true source).2

/-- The line scanner counts the lines that hold something besides white space and the comments that
the lexer finds, if none of the lines misleads it. -/
theorem codeLines_agree (source : List UInt8) (h : (lexedLines source).misleads = false) :
    codeLines source = (lexedLines source).codeCount := by
  have hcount := (lexedLines source).foldl_step_lines (lexedLines_sound source) h 0
  rwa [lexedLines_bytes, Nat.zero_add] at hcount

/-- A text with comments in front of code, behind it and over several lines. -/
def commentedText : List UInt8 :=
  "// header\n\nclass C \x7b\n    /* block\n       comment */\n    int x; // trailing\n\x7d\n".toList.map
    Lexer.ascii

theorem commentedText_codeLines :
    (lexedLines commentedText).misleads = false ∧ codeLines commentedText = 3 := by
  obtain ⟨hplain, hcount⟩ : (lexedLines commentedText).misleads = false ∧
      (lexedLines commentedText).codeCount = 3 := by
    rw [show commentedText = _ from Lexer.ascii_ofList _]
    decide +kernel
  exact ⟨hplain, (codeLines_agree commentedText hplain).trans hcount⟩

/-- A text with an opener of a block comment in a line comment. -/
def openerInCommentText : List UInt8 := "int x; // see /*\nint y;\n".toList.map Lexer.ascii

/-- The opener in the line comment hides the line behind it from the line scanner. -/
theorem openerInCommentText_miscounted :
    (lex openerInCommentText).isOk = true ∧ (lexedLines openerInCommentText).codeCount = 2 ∧
      codeLines openerInCommentText = 1 := by
  rw [show openerInCommentText = _ from Lexer.ascii_ofList _]
  decide +kernel

end CSharpAudit
