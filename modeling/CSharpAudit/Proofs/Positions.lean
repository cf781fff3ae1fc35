import CSharpAudit.Proofs.Parsing
import CSharpAudit.Source.Document

/-!
# Positions in a text

A location is found through the table of line starts, the place of a fault by counting the line
ends before it. Both lead to the same line and column, whatever the offset: one before the text
stands for its start, one behind the text for its end.

## Main definitions

* `lastLineStart` — where the line begins that reading some bytes has reached

## Main results

* `Position.line_after`, `Position.lastLineStart_add_column` — the position behind some bytes, said
  by the lines that start in them
* `Document.takeWhile_lineStarts` — the lines that start up to an offset are those of the bytes
  before it
* `Document.positions_agree` — locations, line starts and faults tell of the same positions
-/

namespace CSharpAudit

open Document Grammar

/-! ### Line starts -/

variable {bs cs : List UInt8} {b : UInt8} {offset k : Nat}

theorem lineStartsFrom_append (bs cs : List UInt8) (offset : Nat) :
    lineStartsFrom offset (bs ++ cs) =
      lineStartsFrom offset bs ++ lineStartsFrom (offset + bs.length) cs := by
  induction bs generalizing offset with
  | nil => rfl
  | cons b bs ih =>
    simp only [List.cons_append, lineStartsFrom, ih, List.length_cons, Nat.add_assoc,
      Nat.add_comm 1]
    split <;> rfl

theorem mem_lineStartsFrom (h : k ∈ lineStartsFrom offset bs) :
    offset < k ∧ k ≤ offset + bs.length := by
  induction bs generalizing offset with
  | nil => cases h
  | cons b bs ih =>
    rw [lineStartsFrom] at h
    rw [List.length_cons]
    split at h
    · rcases List.mem_cons.mp h with rfl | h
      · omega
      · have := ih h
        omega
    · have := ih h
      omega

theorem pairwise_lineStartsFrom (bs : List UInt8) (offset : Nat) :
    (lineStartsFrom offset bs).Pairwise (· < ·) := by
  induction bs generalizing offset with
  | nil => exact .nil
  | cons b bs ih =>
    rw [lineStartsFrom]
    split
    · exact .cons (fun k hk => (mem_lineStartsFrom hk).1) (ih _)
    · exact ih _

/-- Where the line begins that reading some bytes has reached. -/
def lastLineStart (bs : List UInt8) : Nat := (lineStartsFrom 0 bs).getLastD 0

theorem lineStartsFrom_concat (bs : List UInt8) (b : UInt8) :
    lineStartsFrom 0 (bs ++ [b]) =
      lineStartsFrom 0 bs ++ if b == newline then [bs.length + 1] else [] := by
  rw [lineStartsFrom_append, Nat.zero_add]
  rfl

theorem lastLineStart_concat (bs : List UInt8) (b : UInt8) :
    lastLineStart (bs ++ [b]) = if b == newline then bs.length + 1 else lastLineStart bs := by
  rw [lastLineStart, lineStartsFrom_concat]
  split
  · simp
  · rw [List.append_nil, lastLineStart]

theorem lastLineStart_le (bs : List UInt8) : lastLineStart bs ≤ bs.length := by
  induction bs using List.reverseRecOn with
  | nil => exact Nat.le_refl 0
  | append_singleton bs b ih =>
    rw [lastLineStart_concat, List.length_append, List.length_singleton]
    split <;> omega

/-- Behind the start of the line reached there is no line end. -/
theorem newline_notMem_drop_lastLineStart (bs : List UInt8) :
    newline ∉ bs.drop (lastLineStart bs) := by
  induction bs using List.reverseRecOn with
  | nil => simp
  | append_singleton bs b ih =>
    rw [lastLineStart_concat]
    split
    · rw [List.drop_of_length_le (by simp)]
      exact List.not_mem_nil
    · rename_i hb
      rw [List.drop_append_of_le_length (lastLineStart_le bs), List.mem_append, not_or,
        List.mem_singleton]
      exact ⟨ih, fun h => hb (by simp [h])⟩

namespace Position

theorem after_concat (bs : List UInt8) (b : UInt8) : after (bs ++ [b]) = (after bs).step b := by
  rw [after, List.foldl_append]
  rfl

/-- The line reached is the number of lines that have started. -/
theorem line_after (bs : List UInt8) : (after bs).line = (lineStartsFrom 0 bs).length + 1 := by
  induction bs using List.reverseRecOn with
  | nil => rfl
  | append_singleton bs b ih =>
    rw [after_concat, lineStartsFrom_concat, List.length_append, step]
    split <;> simp [ih]

/-- The column reached counts from the start of the line. -/
theorem lastLineStart_add_column (bs : List UInt8) :
    lastLineStart bs + (after bs).column = bs.length + 1 := by
  induction bs using List.reverseRecOn with
  | nil => rfl
  | append_singleton bs b ih =>
    rw [after_concat, lastLineStart_concat, List.length_append, List.length_singleton, step]
    split
    · rfl
    · show lastLineStart bs + ((after bs).column + 1) = bs.length + 1 + 1
      rw [← Nat.add_assoc, ih]

end Position

namespace Document

variable (d : Document)

theorem pairwise_lineStarts : d.lineStarts.Pairwise (· < ·) :=
  .cons (fun _ hk => (mem_lineStartsFrom hk).1) (pairwise_lineStartsFrom d.source 0)

/-- Some lines start up to an offset, the others behind it. -/
theorem lineStarts_eq (h : k ≤ d.source.length) :
    d.lineStarts =
      (0 :: lineStartsFrom 0 (d.source.take k)) ++ lineStartsFrom k (d.source.drop k) := by
  rw [lineStarts, List.cons_append]
  conv_lhs => rw [← List.take_append_drop k d.source, lineStartsFrom_append, List.length_take,
    Nat.min_eq_left h, Nat.zero_add]

theorem le_of_mem_lineStarts_take {i : Nat} (hi : i ∈ 0 :: lineStartsFrom 0 (d.source.take k)) :
    i ≤ k := by
  rcases List.mem_cons.mp hi with rfl | hi
  · exact Nat.zero_le k
  · have := (mem_lineStartsFrom hi).2
    rw [List.length_take] at this
    omega

/-- The lines that start up to an offset are those of the bytes before it. -/
theorem takeWhile_lineStarts (h : k ≤ d.source.length) :
    d.lineStarts.takeWhile (· ≤ k) = 0 :: lineStartsFrom 0 (d.source.take k) := by
  have hbehind : (lineStartsFrom k (d.source.drop k)).takeWhile (· ≤ k) = [] := by
    rw [List.takeWhile_eq_nil_iff]
    intro hpos hle
    exact Nat.not_le_of_lt (mem_lineStartsFrom (List.getElem_mem hpos)).1 (of_decide_eq_true hle)
  rw [d.lineStarts_eq h, List.takeWhile_append_of_pos fun i hi =>
    decide_eq_true (d.le_of_mem_lineStarts_take hi), hbehind, List.append_nil]

/-- A line starts up to an offset if it is not behind the line of the offset. So any search through
the line starts finds the same line. -/
theorem lineStarts_le_iff (h : k ≤ d.source.length) {i : Nat} (hi : i < d.lineStarts.length) :
    d.lineStarts[i] ≤ k ↔ i < (Position.ofOffset d.source k).line := by
  have hlines : (Position.ofOffset d.source k).line =
      (0 :: lineStartsFrom 0 (d.source.take k)).length := Position.line_after _
  simp only [d.lineStarts_eq h, hlines, List.getElem_append]
  split
  · rename_i hlt
    exact iff_of_true (d.le_of_mem_lineStarts_take (List.getElem_mem hlt)) hlt
  · rename_i hge
    exact iff_of_false (Nat.not_le_of_lt (mem_lineStartsFrom (List.getElem_mem _)).1) hge

/-! ### Locations -/

theorem clamp_le (limit : Nat) (n : Int) : clamp limit n ≤ limit := Nat.min_le_right _ _

/-- A location has the line and the column of the place it starts at. -/
theorem locate_eq (start length : Int) :
    d.locate start length =
      { file := d.file
        line := (Position.ofOffset d.source (clamp d.source.length start)).line
        column := (Position.ofOffset d.source (clamp d.source.length start)).column
        length := clamp (d.source.length - clamp d.source.length start) length } := by
  have hle := clamp_le d.source.length start
  have hstart : (0 :: lineStartsFrom 0 (d.source.take (clamp d.source.length start))).getLast?.getD 0
      = lastLineStart (d.source.take (clamp d.source.length start)) := by
    rw [lastLineStart, ← List.getLastD_eq_getLast?, List.getLastD_cons]
  have hcolumn := Position.lastLineStart_add_column (d.source.take (clamp d.source.length start))
  rw [List.length_take, Nat.min_eq_left hle] at hcolumn
  rw [locate, d.takeWhile_lineStarts hle]
  simp only [hstart, List.length_cons, Position.ofOffset, Position.line_after]
  congr 1
  omega

/-- The line of a place starts where the table of line starts says. -/
theorem getElem?_lineStarts (h : k ≤ d.source.length) :
    d.lineStarts[(Position.ofOffset d.source k).line - 1]? =
      some (lastLineStart (d.source.take k)) := by
  rw [Position.ofOffset, Position.line_after, Nat.add_sub_cancel, d.lineStarts_eq h,
    List.getElem?_append_left (by simp)]
  cases hstarts : lineStartsFrom 0 (d.source.take k) with
  | nil => simp [lastLineStart, hstarts]
  | cons i is => simp [lastLineStart, hstarts, List.getLastD_eq_getLast?, List.getLast?_eq_getElem?]

/-- `d.IsPosition k p` says that the line of `p` is the last one that starts up to the offset `k`,
and that its column counts the bytes from there on, among which no line ends. -/
structure IsPosition (k : Nat) (p : Position) : Prop where
  starts_iff : ∀ (i : Nat) (hi : i < d.lineStarts.length), d.lineStarts[i] ≤ k ↔ i < p.line
  exists_start : ∃ start ≤ k, d.lineStarts[p.line - 1]? = some start ∧ start + p.column = k + 1 ∧
    newline ∉ (d.source.take k).drop start

theorem isPosition_ofOffset (h : k ≤ d.source.length) :
    d.IsPosition k (Position.ofOffset d.source k) where
  starts_iff _ hi := d.lineStarts_le_iff h hi
  exists_start := by
    have hlength : (d.source.take k).length = k := by rw [List.length_take, Nat.min_eq_left h]
    refine ⟨_, ?_, d.getElem?_lineStarts h, ?_, newline_notMem_drop_lastLineStart _⟩
    · calc lastLineStart (d.source.take k) ≤ (d.source.take k).length := lastLineStart_le _
        _ = k := hlength
    · rw [Position.ofOffset, Position.lastLineStart_add_column, hlength]

end Document

/-! ### Faults -/

/-- A fault and a location clamp an offset to the text alike. -/
theorem SyntaxError.place_eq_clamp (source : List UInt8) (e : SyntaxError) :
    e.place source = clamp source.length e.offset := by
  unfold SyntaxError.place clamp
  omega

/-- A text is refused at a place inside it. If it consists of tokens, it is refused at one of
them. -/
theorem offset_of_parse_error {source : List UInt8} {e : SyntaxError}
    (h : parse source = .error e) :
    (0 ≤ e.offset ∧ e.offset ≤ source.length) ∧
      ∀ tokens nullable, lex source = .ok (tokens, nullable) →
        ∃ t ∈ tokens, e.offset = t.span.start := by
  -- by the lexer, or by the parser at a token
  cases hlex : lex source with
  | error e' =>
    obtain rfl : e' = e := by
      rw [parse, hlex] at h
      exact Except.error.inj h
    obtain ⟨⟨hnonneg, hlt⟩, -⟩ := Lexer.faultOf_lex hlex
    exact ⟨⟨hnonneg, Int.le_of_lt hlt⟩, fun _ _ h => by cases h⟩
  | ok r =>
    obtain ⟨tokens, nullable⟩ := r
    rw [parse_of_lex hlex] at h
    rcases (Layouts.ofLex hlex).reads_unitOfTokens with ⟨u, k, -, hok⟩ | ⟨e', he⟩
    · have hok : unitOfTokens source tokens.dropLast (tokens.getLast?.getD default) = .ok (u ()) :=
        hok ()
      rw [hok] at h
      cases h
    · obtain ⟨he, -, j, hj, hoffset⟩ := he ()
      have he : unitOfTokens source tokens.dropLast (tokens.getLast?.getD default) =
          .error (e' ()) := he
      rw [he] at h
      obtain rfl : e' () = e := Except.error.inj h
      have hsize := Layouts.size_ofLex hlex
      have hbehind := (Layouts.ofLex hlex).start_le_behind () j
      have hlength := (Layouts.ofLex hlex).behind_le_length () (j + 1)
      rw [hoffset]
      refine ⟨⟨Int.natCast_nonneg _, Int.ofNat_le.mpr (Nat.le_trans hbehind hlength)⟩,
        fun tokens' nullable' h => ?_⟩
      obtain ⟨rfl, rfl⟩ := Prod.mk.inj (Except.ok.inj h)
      exact ⟨_, List.mem_of_getElem? (Layouts.token_ofLex hlex (by omega)), rfl⟩

/-- The location of a range and a fault at its start are at the same line and column, which the line
starts of the text tell, and the range stays in the text. A fault of the text is found inside it,
and at one of its tokens if it consists of tokens. -/
theorem Document.positions_agree (d : Document) :
    (d.lineStarts.head? = some 0 ∧ d.lineStarts.Pairwise (· < ·)) ∧
    (∀ (offset length : Int) (cause : SyntaxError.Cause), ∃ p : Position,
      SyntaxError.position d.source ⟨offset, cause⟩ = p ∧
      (d.locate offset length).line = p.line ∧ (d.locate offset length).column = p.column ∧
      d.IsPosition (clamp d.source.length offset) p ∧ 0 ≤ (d.locate offset length).length ∧
      clamp d.source.length offset + (d.locate offset length).length ≤ d.source.length) ∧
    ∀ e, parseWithSpans d.source = .error e → (0 ≤ e.offset ∧ e.offset ≤ d.source.length) ∧
      ∀ tokens nullable, lex d.source = .ok (tokens, nullable) →
        ∃ t ∈ tokens, e.offset = t.span.start := by
  refine ⟨⟨rfl, d.pairwise_lineStarts⟩, fun offset length cause => ?_, fun e he => ?_⟩
  · have hplace := clamp_le d.source.length offset
    have hlength := clamp_le (d.source.length - clamp d.source.length offset) length
    refine ⟨Position.ofOffset d.source (clamp d.source.length offset), ?_, ?_, ?_,
      d.isPosition_ofOffset hplace, ?_, ?_⟩
    -- Both clamp the offset in the same way, so they ask for the same place of the text.
    · rw [SyntaxError.position, SyntaxError.place_eq_clamp]
    · rw [locate_eq]
    · rw [locate_eq]
    · rw [locate_eq]
      exact Int.natCast_nonneg _
    · rw [locate_eq]
      show (clamp d.source.length offset : Int) +
        clamp (d.source.length - clamp d.source.length offset) length ≤ d.source.length
      omega
  · refine offset_of_parse_error ?_
    rw [parseWithSpans] at he
    cases h : parse d.source with
    | error e' =>
      rw [h] at he
      exact congrArg _ (Except.error.inj he)
    | ok u =>
      rw [h] at he
      cases he

end CSharpAudit
