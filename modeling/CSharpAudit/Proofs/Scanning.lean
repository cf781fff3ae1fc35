import CSharpAudit.Proofs.Utf8
import CSharpAudit.Token.Lexer

/-!
# The extent of pieces

Each scanner of the lexer stays inside the text, whatever stands there, and finds its faults at
bytes of the text.

## Main results

* `Lexer.number_le`, `Lexer.quoted_le`, `Lexer.interpolated_le`, … — no scanner reads past the end
* `Lexer.scans_marked?`, `Lexer.scans_plain` — a piece is a token inside the text, or a fault at one
  of its bytes
-/

namespace CSharpAudit.Lexer

variable {bs rest needle : List UInt8} {b mark : UInt8} {n pos depth : Nat} {isVerbatim : Bool}

theorem countWhile_le (p : UInt8 → Bool) (bs : List UInt8) : countWhile p bs ≤ bs.length :=
  (List.takeWhile_sublist p).length_le

/-- What is found lies inside the text. -/
theorem indexOf?_le (h : indexOf? needle bs = some n) : n + needle.length ≤ bs.length := by
  induction bs generalizing n with
  | nil =>
    obtain ⟨rfl, rfl⟩ : needle = [] ∧ 0 = n := by simpa [indexOf?] using h
    exact Nat.le_refl 0
  | cons b rest ih =>
    rw [indexOf?] at h
    split at h
    · rename_i hprefix
      obtain rfl := Option.some.inj h
      simpa using (List.isPrefixOf_iff_prefix.mp hprefix).length_le
    · obtain ⟨m, hm, rfl⟩ := Option.map_eq_some_iff.mp h
      have := ih hm
      simp only [List.length_cons]
      omega

theorem length_le_of_startsWith {chars : String} (h : startsWith chars bs = true) :
    chars.toList.length ≤ bs.length := by
  simpa using (List.isPrefixOf_iff_prefix.mp h).length_le

/-! ### Identifiers -/

theorem identTail_le (bs : List UInt8) : identTail bs ≤ bs.length := by
  fun_induction identTail bs with
  | case1 => exact Nat.le_refl 0
  | case2 b rest piece more hnext hpart ih =>
    have := Text.Utf8.next_snd_le b rest
    simp only [hnext, List.length_drop, List.length_cons] at *
    omega
  | case3 => exact Nat.zero_le _

/-- An identifier is not empty and ends inside the text. -/
theorem identifier?_le (h : identifier? bs = some n) : 0 < n ∧ n ≤ bs.length := by
  cases bs with
  | nil => cases h
  | cons b rest =>
    have hnext := Text.Utf8.next_snd_le b rest
    have htail := identTail_le (rest.drop (Text.Utf8.next b rest).2)
    simp only [identifier?, Option.ite_none_right_eq_some, Option.some.injEq] at h
    simp only [List.length_drop, List.length_cons] at *
    omega

/-! ### Numbers -/

theorem fraction_le (bs : List UInt8) : fraction bs ≤ bs.length := by
  unfold fraction
  split
  · rename_i point d rest
    have := countWhile_le isDigitOrBar (d :: rest)
    split <;> simp only [List.length_cons] at * <;> omega
  · exact Nat.zero_le _

theorem exponent_le (bs : List UInt8) : exponent bs ≤ bs.length := by
  unfold exponent
  split
  · rename_i e rest
    split
    · have hsign : (if (rest.head?.map (isOneOf "+-")).getD false then 1 else 0) ≤ rest.length := by
        cases rest with
        | nil => exact Nat.le_refl 0
        | cons c rest =>
          split
          · exact Nat.succ_le_succ (Nat.zero_le _)
          · exact Nat.zero_le _
      generalize (if (rest.head?.map (isOneOf "+-")).getD false then 1 else 0) = sign at hsign ⊢
      have := countWhile_le isDigitOrBar (rest.drop sign)
      simp only [List.length_drop, List.length_cons] at *
      omega
    · exact Nat.zero_le _
  · exact Nat.zero_le _

theorem two_le_of_radix (h : (startsWith "0x" bs || startsWith "0X" bs || startsWith "0b" bs ||
    startsWith "0B" bs) = true) : 2 ≤ bs.length := by
  simp only [Bool.or_eq_true] at h
  rcases h with ((h | h) | h) | h
  all_goals exact length_le_of_startsWith h

/-- A number ends inside the text, with its suffix. -/
theorem number_le (bs : List UInt8) : (number bs).2 ≤ bs.length := by
  unfold number
  have hradix : (startsWith "0x" bs || startsWith "0X" bs || startsWith "0b" bs ||
    startsWith "0B" bs) = true → 2 ≤ bs.length := two_le_of_radix
  generalize (startsWith "0x" bs || startsWith "0X" bs || startsWith "0b" bs ||
    startsWith "0B" bs) = radix at hradix ⊢
  -- each part of a number ends inside what the parts in front of it leave
  cases radix with
  | true =>
    have hdigits := countWhile_le (fun b => isHexDigit b || b == ascii '_') (bs.drop 2)
    generalize countWhile (fun b => isHexDigit b || b == ascii '_') (bs.drop 2) = digits at *
    have hsuffix := countWhile_le (isOneOf "uUlLfFdDmM") (bs.drop (2 + digits))
    simp [countWhile] at *
    omega
  | false =>
    have hdigits := countWhile_le isDigitOrBar bs
    generalize hd : countWhile isDigitOrBar bs = digits at *
    have hfrac := fraction_le (bs.drop digits)
    generalize hf : fraction (bs.drop digits) = frac at *
    have hexp := exponent_le (bs.drop (digits + frac))
    generalize he : exponent (bs.drop (digits + frac)) = exp at *
    have hsuffix := countWhile_le (isOneOf "uUlLfFdDmM") (bs.drop (digits + frac + exp))
    simp [hf, he]
    simp [countWhile] at *
    omega

/-- Numbers are integers or reals. -/
theorem number_kind (bs : List UInt8) : (number bs).1 = .real ∨ (number bs).1 = .int := by
  have hkind (c : Bool) : (if c then TokenKind.real else .int) = .real ∨
      (if c then TokenKind.real else .int) = .int := by cases c <;> simp
  exact hkind _

/-! ### Literals -/

theorem map_eq_ok_iff {ε α β : Type} {f : α → β} {x : Except ε α} {y : β} :
    x.map f = .ok y ↔ ∃ a, x = .ok a ∧ f a = y := by
  cases x <;> simp [Except.map]

/-- A literal between marks ends inside the text. -/
theorem quoted_le (h : quoted mark bs = .ok n) : n ≤ bs.length := by
  fun_induction quoted mark bs generalizing n with
  | case1 | case2 | case4 => cases h
  | case3 _ _ _ rest ih =>
    obtain ⟨m, hm, rfl⟩ := map_eq_ok_iff.mp h
    exact Nat.add_le_add_right (ih hm) 2
  | case5 =>
    cases h
    exact Nat.succ_le_succ (Nat.zero_le _)
  | case6 _ _ _ _ _ ih =>
    obtain ⟨m, hm, rfl⟩ := map_eq_ok_iff.mp h
    exact Nat.succ_le_succ (ih hm)

/-- So does a verbatim one. -/
theorem verbatim?_le (h : verbatim? bs = some n) : n ≤ bs.length := by
  fun_induction verbatim? bs generalizing n with
  | case1 => cases h
  | case2 _ _ _ rest _ ih =>
    obtain ⟨m, hm, rfl⟩ := Option.map_eq_some_iff.mp h
    exact Nat.add_le_add_right (ih hm) 2
  | case3 | case4 =>
    cases h
    exact Nat.succ_le_succ (Nat.zero_le _)
  | case5 _ _ _ ih =>
    obtain ⟨m, hm, rfl⟩ := Option.map_eq_some_iff.mp h
    exact Nat.succ_le_succ (ih hm)

/-- A doubled character or an escape takes two bytes, but the string goes on behind it. -/
theorem interpolated_le (h : interpolated isVerbatim depth pos bs = .ok n) :
    pos < n ∧ n ≤ pos + bs.length := by
  fun_induction interpolated isVerbatim depth pos bs with
  | case1 | case5 | case10 => cases h
  | case9 =>
    cases h
    simp only [List.length_cons]
    omega
  | case2 _ _ _ _ _ _ ih | case3 _ _ _ _ _ _ _ ih | case4 _ _ _ _ _ _ _ _ ih
  | case6 _ _ _ _ _ _ _ _ _ _ _ ih | case7 _ _ _ _ _ _ _ _ _ _ ih
  | case8 _ _ _ _ _ _ _ _ _ _ _ _ ih | case11 _ _ _ _ _ _ _ _ _ _ _ _ ih =>
    have := ih h
    simp only [List.length_cons, List.length_drop] at *
    omega

/-- Whether a fault is found within the first `n` bytes behind the start of a piece, and tells of
the text rather than of a reading without end. -/
structure Fault.Inside (f : Fault) (n : Nat) : Prop where
  distance_le : f.distance ≤ n
  isEndless_eq : f.cause.isEndless = false

/-- A literal that is not closed is a fault that can be backed out of. -/
theorem quoted_error {cause : SyntaxError.Cause} (h : quoted mark bs = .error cause) :
    cause.isEndless = false := by
  have herror {k : Nat} {x : Except SyntaxError.Cause Nat} (hx : x.map (· + k) = .error cause) :
      x = .error cause := by
    cases x with
    | ok => cases hx
    | error => exact hx
  fun_induction quoted mark bs with
  | case1 | case2 | case4 =>
    cases h
    rfl
  | case3 _ _ _ _ ih => exact ih (herror h)
  | case5 => cases h
  | case6 _ _ _ _ _ ih => exact ih (herror h)

/-- The fault of an interpolated literal lies inside of it. -/
theorem interpolated_error {f : Fault} (h : interpolated isVerbatim depth pos bs = .error f) :
    f.cause.isEndless = false ∧
      (f.distance = 0 ∨ pos ≤ f.distance ∧ f.distance < pos + bs.length) := by
  fun_induction interpolated isVerbatim depth pos bs with
  | case1 | case10 =>
    cases h
    exact ⟨rfl, .inl rfl⟩
  | case5 =>
    cases h
    simp only [List.length_cons]
    exact ⟨rfl, .inr (by omega)⟩
  | case9 => cases h
  | case2 _ _ _ _ _ _ ih | case3 _ _ _ _ _ _ _ ih | case4 _ _ _ _ _ _ _ _ ih
  | case6 _ _ _ _ _ _ _ _ _ _ _ ih | case7 _ _ _ _ _ _ _ _ _ _ ih
  | case8 _ _ _ _ _ _ _ _ _ _ _ _ ih | case11 _ _ _ _ _ _ _ _ _ _ _ _ ih =>
    obtain ⟨hcause, hdistance⟩ := ih h
    simp only [List.length_cons, List.length_drop] at *
    exact ⟨hcause, by omega⟩

/-- A raw literal ends inside the text. -/
theorem raw?_le (h : raw? bs = some n) : n ≤ bs.length := by
  obtain ⟨m, hm, rfl⟩ := Option.map_eq_some_iff.mp h
  have hmarks := countWhile_le (· == ascii '"') bs
  have hindex := indexOf?_le hm
  simp only [List.length_drop, List.length_replicate] at *
  omega

/-! ### Pieces -/

/-- A piece at the head of `b :: rest` that is a token and lies inside that text. Only a verbatim
identifier leaves out a byte, its sign. -/
def Piece.IsToken (b : UInt8) (rest : List UInt8) : Piece → Prop
  | .token kind lead more =>
    kind ≠ .eof ∧ more ≤ rest.length ∧
      (lead = 0 ∨ lead = 1 ∧ kind = .ident ∧ b = ascii '@' ∧ 0 < more)
  | _ => False

/-- What a scanner may find at the head of `b :: rest`: a token, nothing of its kind, or a fault at
a byte of the text. -/
def Scans (b : UInt8) (rest : List UInt8) : Except Fault (Option Piece) → Prop
  | .ok (some p) => p.IsToken b rest
  | .ok none => True
  | .error f => f.Inside rest.length

variable {kind : TokenKind} {lead : Nat}

/-- A literal whose extent is known is a token. -/
theorem scans_stringToken {extent : Option Nat} {fault : SyntaxError.Cause}
    (hfault : fault.isEndless = false)
    (h : ∀ n, extent = some n → lead + n ≤ rest.length + 1) :
    Scans b rest (stringToken lead extent fault) := by
  cases extent with
  | none => exact ⟨Nat.zero_le _, hfault⟩
  | some n =>
    have := h n rfl
    exact ⟨by simp, by omega, .inl rfl⟩

/-- Interpolated literals are tokens, or faults inside the text. -/
theorem scans_interpolatedToken (h : lead ≤ rest.length + 1) :
    Scans b rest (interpolatedToken isVerbatim lead (b :: rest)) := by
  unfold interpolatedToken
  cases hread : interpolated isVerbatim 0 lead ((b :: rest).drop lead) with
  | ok n =>
    have := interpolated_le hread
    simp only [List.length_drop, List.length_cons] at this
    exact ⟨by simp, by omega, .inl rfl⟩
  | error f =>
    obtain ⟨hcause, hdistance⟩ := interpolated_error hread
    simp only [List.length_drop, List.length_cons] at hdistance
    exact ⟨by omega, hcause⟩

/-- Literals between marks are tokens, or faults inside the text. -/
theorem scans_quotedToken (hkind : kind ≠ .eof) : Scans b rest (quotedToken kind b rest) := by
  unfold quotedToken
  cases hread : quoted b rest with
  | ok n => exact ⟨hkind, quoted_le hread, .inl rfl⟩
  | error cause => exact ⟨Nat.zero_le _, quoted_error hread⟩

/-- What a mark in front of a literal introduces is a token, a fault inside the text or
nothing. -/
theorem scans_marked? (b : UInt8) (rest : List UInt8) : Scans b rest (marked? b rest) := by
  simp only [marked?]
  split
  · -- behind an at sign stands a verbatim string, with or without holes, or an identifier
    rename_i hat
    split
    · rename_i hquote
      refine scans_stringToken rfl fun n hn => ?_
      have hone : 1 ≤ rest.length := length_le_of_startsWith hquote
      have := verbatim?_le hn
      simp only [List.length_drop] at this
      omega
    split
    · rename_i hmarks
      exact scans_interpolatedToken (Nat.succ_le_succ (length_le_of_startsWith hmarks))
    cases hident : identifier? rest with
    | none => trivial
    | some n =>
      have := identifier?_le hident
      exact ⟨by simp, this.2, .inr ⟨rfl, rfl, beq_iff_eq.mp hat, this.1⟩⟩
  split
  · -- behind a dollar sign stands a string with holes: raw, verbatim, plain, or raw with more signs
    split
    · refine scans_stringToken rfl fun n hn => ?_
      have := raw?_le hn
      omega
    split
    · rename_i hmarks
      exact scans_interpolatedToken (Nat.succ_le_succ (length_le_of_startsWith hmarks))
    split
    · rename_i hmarks
      exact scans_interpolatedToken (Nat.succ_le_succ (length_le_of_startsWith hmarks))
    split
    · split
      · refine scans_stringToken rfl fun n hn => ?_
        have := raw?_le hn
        have := countWhile_le (· == ascii '$') (b :: rest)
        simp only [List.length_drop, List.length_cons] at *
        omega
      · trivial
    · trivial
  split
  · -- three quotation marks start a raw string, and one a plain string
    split
    · refine scans_stringToken rfl fun n hn => ?_
      have := raw?_le hn
      simp only [List.length_cons] at this
      omega
    · exact scans_quotedToken (by simp)
  split
  · exact scans_quotedToken (by simp)
  · trivial

/-- Everything else is a token or a fault at its first byte. -/
theorem scans_plain (b : UInt8) (rest : List UInt8) : Scans b rest ((plain b rest).map some) := by
  simp only [plain]
  split
  · have hle := number_le (b :: rest)
    simp only [List.length_cons] at hle
    have hkind : (number (b :: rest)).1 ≠ .eof := by
      rcases number_kind (b :: rest) with h | h <;> simp [h]
    exact ⟨hkind, by omega, .inl rfl⟩
  · split
    · rename_i q hq
      have := length_le_of_startsWith (List.find?_some (p := (startsWith · (b :: rest))) hq)
      simp only [String.length_toList, List.length_cons] at this
      exact ⟨by simp, by omega, .inl rfl⟩
    · exact ⟨Nat.zero_le _, rfl⟩

end CSharpAudit.Lexer
