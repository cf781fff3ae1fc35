import CSharpAudit.Proofs.SharedWalks
import CSharpAudit.Proofs.Words

/-!
# Suggested names

A parameter or a local variable that is not in camel case is to be renamed, and the new name is made
from the old one: underscores are dropped and letters take the other case. The new name consists of
what an identifier consists of, since the other case of a letter is a letter again.

Nothing makes sure that it is an identifier in camel case, though. It is one exactly if it is no
reserved word and its first character has become a lower-case letter. A digit behind the underscores
in front becomes the head of the name, and a letter without case stays as it is.

## Main definitions

* `IsIdentifier` — a text that is read as the identifier of that name
* `isMiscased` — a name that is reported
* `CompilationUnit.localNames` — the names of parameters and local variables

## Main results

* `Text.toUpper_eq_or_isLetter` — the other case of a letter is a letter
* `isIdentifier_iff` — identifiers are the words that are not reserved
* `isCamelCase_toCamelCase_iff` — when a suggested name is in camel case
* `suggested_name_accepted_iff` — what is suggested, and when it is acceptable
-/

namespace CSharpAudit

open Lexer (isIdentPart isIdentStart)

/-! ### Letters in the other case -/

namespace Text

variable {n lo hi step : Nat} {c : Char}

/-- The table of letters from some number on. -/
def lettersFrom (start : Nat) : List (Nat × Nat) :=
  letters.ranges.toList.dropWhile fun r => r.1.blt start

/-- The part of the table of letters in which a number is looked up. The table is long, and most
letters with case stand at its ends. -/
def nearLetters (n : Nat) : List (Nat × Nat) :=
  bif n.blt 0x1000 then letters.ranges.toList
  else bif n.blt 0x1C00 then lettersFrom 0x1000
  else bif n.blt 0xA000 then lettersFrom 0x1C00
  else bif n.blt 0x10400 then lettersFrom 0xA000
  else bif n.blt 0x1D000 then lettersFrom 0x10400
  else lettersFrom 0x1D000

theorem mem_letters_of_mem_nearLetters {r : Nat × Nat} (h : r ∈ nearLetters n) :
    r ∈ letters.ranges.toList := by
  have hfrom {start : Nat} (h : r ∈ lettersFrom start) : r ∈ letters.ranges.toList :=
    (List.dropWhile_suffix _).mem h
  simp only [nearLetters, cond_eq_ite] at h
  split_ifs at h
  · exact h
  all_goals exact hfrom h

/-- Whether a number belongs to a letter. -/
def isLetterNumber (n : Nat) : Bool := (nearLetters n).any fun r => r.1.ble n && n.ble r.2

/-- Whether all numbers of a range belong to letters: as part of a range of the table, or else one
by one. -/
def holdsLetters (lo hi step : Nat) : Bool :=
  (nearLetters lo).any (fun r => r.1.ble lo && hi.ble r.2) ||
    (List.range (hi - lo + 1)).all fun k => k % step != 0 || isLetterNumber (lo + k)

/-- Whether a range lies apart from those of a set. -/
def liesApart (lo hi : Nat) (s : CharSet) : Bool :=
  s.ranges.toList.all fun (first, last) => hi < first || last < lo

/-- What the tables hold. Each of them is looked through once, range by range. -/
structure TablesHold : Prop where
  /-- Letters are characters, -/
  letters_valid : ∀ r ∈ letters.ranges.toList, r.2 < 0xD800 ∨ 0xDFFF < r.1 ∧ r.2 < 0x110000
  /-- and those of the basic Latin block are the right ones. -/
  letters_latin : ∀ r ∈ letters.ranges.toList, r.1 < 0x80 → r.2 < 0x80 ∧
    ∀ k < r.2 - r.1 + 1, (Char.ofNat (r.1 + k)).isAlpha = true
  /-- Lower-case letters are letters. -/
  lower : ∀ r ∈ lowerLetters.toList, holdsLetters r.1 r.2.1 r.2.2 = true
  /-- Upper case makes letters of letters, -/
  upper_latin : ∀ n < 0x80, (Char.ofNat n).toUpper = Char.ofNat n ∨
    isLetter (Char.ofNat n).toUpper = true
  /-- but signs that are none of an identifier have two cases as well. -/
  upperForms : ∀ r ∈ upperForms.toList,
    holdsLetters r.2.2.2 (r.2.2.2 + (r.2.1 - r.1)) r.2.2.1 = true ∨
      [letters, decimalDigits, nonspacingMarks, connectors].all (liesApart r.1 r.2.1) = true
  /-- Lower case makes characters of characters, and none in front of the small letters. -/
  lower_latin : ∀ n < 0x80, (Char.ofNat n).toLower = Char.ofNat n ∨
    'a'.toNat ≤ (Char.ofNat n).toLower.toNat
  lowerForms : ∀ r ∈ lowerForms.toList, 'a'.toNat ≤ r.2.2.2 ∧
    (r.2.2.2 + (r.2.1 - r.1) < 0xD800 ∨
      0xDFFF < r.2.2.2 ∧ r.2.2.2 + (r.2.1 - r.1) < 0x110000)
  /-- Neither the sign in front of reserved words nor the byte-order mark is a letter. -/
  signs : isIdentPart '@' = false ∧ isIdentStart '\uFEFF' = false

theorem tablesHold : TablesHold where
  letters_valid := by decide +kernel
  letters_latin := by decide +kernel
  lower := by decide +kernel
  upper_latin := by decide +kernel
  upperForms := by decide +kernel
  lower_latin := by decide +kernel
  lowerForms := by decide +kernel
  signs := by
    simp only [isIdentPart, isIdentStart, isLetter, Lexer.contains_eq_any]
    decide +kernel

theorem isLetter_ofNat {r : Nat × Nat} (hr : r ∈ letters.ranges.toList) (hlo : r.1 ≤ n)
    (hhi : n ≤ r.2) : isLetter (Char.ofNat n) = true := by
  have hvalid : n.isValidChar := by
    have hrange := tablesHold.letters_valid r hr
    rw [Nat.isValidChar]
    omega
  have htoNat : (Char.ofNat n).toNat = n := by rw [Char.toNat_ofNat, if_pos hvalid]
  rw [isLetter, htoNat]
  split_ifs with hlow
  · have halpha := (tablesHold.letters_latin r hr (by omega)).2 (n - r.1) (by omega)
    rwa [Nat.add_sub_cancel' hlo] at halpha
  · rw [Lexer.contains_eq_any, htoNat]
    exact List.any_eq_true.mpr ⟨r, hr, by simp [hlo, hhi]⟩

theorem isLetter_of_isLetterNumber (h : isLetterNumber n = true) :
    isLetter (Char.ofNat n) = true := by
  obtain ⟨r, hr, hle⟩ := List.any_eq_true.mp h
  obtain ⟨hlo, hhi⟩ := Bool.and_eq_true_iff.mp hle
  exact isLetter_ofNat (mem_letters_of_mem_nearLetters hr) (Nat.le_of_ble_eq_true hlo)
    (Nat.le_of_ble_eq_true hhi)

theorem isLetter_of_holdsLetters (h : holdsLetters lo hi step = true)
    (hn : inRange n lo hi step = true) : isLetter (Char.ofNat n) = true := by
  simp only [inRange, Bool.and_eq_true, decide_eq_true_eq, beq_iff_eq] at hn
  obtain ⟨⟨hlo, hhi⟩, hstep⟩ := hn
  rcases Bool.or_eq_true_iff.mp h with h | h
  · obtain ⟨r, hr, hle⟩ := List.any_eq_true.mp h
    obtain ⟨hfirst, hlast⟩ := Bool.and_eq_true_iff.mp hle
    exact isLetter_ofNat (mem_letters_of_mem_nearLetters hr)
      ((Nat.le_of_ble_eq_true hfirst).trans hlo) (hhi.trans (Nat.le_of_ble_eq_true hlast))
  · have hk := List.all_eq_true.mp h (n - lo) (List.mem_range.mpr (by omega))
    rw [hstep, bne_self_eq_false, Bool.false_or, Nat.add_sub_cancel' hlo] at hk
    exact isLetter_of_isLetterNumber hk

theorem isLetter_of_isLower (h : isLower c = true) : isLetter c = true := by
  rw [isLower] at h
  split_ifs at h with hlow
  · rw [isLetter, if_pos hlow, Char.isAlpha, h, Bool.or_true]
  · rw [← Array.any_toList] at h
    obtain ⟨r, hr, hn⟩ := List.any_eq_true.mp h
    have hletter := isLetter_of_holdsLetters (tablesHold.lower r hr) hn
    rwa [Char.ofNat_toNat] at hletter

theorem contains_eq_false (h : liesApart lo hi s = true) (hlo : lo ≤ c.toNat) (hhi : c.toNat ≤ hi) :
    s.contains c = false := by
  rw [Lexer.contains_eq_any, List.any_eq_false]
  intro r hr hle
  have hapart := List.all_eq_true.mp h r hr
  simp only [Bool.and_eq_true, Bool.or_eq_true, decide_eq_true_eq] at hle hapart
  omega

/-- In upper case a character of an identifier stays what it is or becomes a letter. -/
theorem toUpper_eq_or_isLetter (h : isIdentPart c = true) :
    toUpper c = c ∨ isLetter (toUpper c) = true := by
  rw [toUpper]
  split_ifs with hlow
  · have hcase := tablesHold.upper_latin c.toNat hlow
    rwa [Char.ofNat_toNat] at hcase
  · rw [formOf, ← Array.find?_toList]
    -- From here on the character has a form in the table, and the tables have been checked as a
    -- whole.
    split
    next lo hi step form hfind =>
      have hin := List.find?_some hfind
      simp only [inRange, Bool.and_eq_true, decide_eq_true_eq, beq_iff_eq] at hin
      obtain ⟨⟨hlo, hhi⟩, hstep⟩ := hin
      rcases tablesHold.upperForms _ (List.mem_of_find?_eq_some hfind) with hletters | hapart
      · refine .inr (isLetter_of_holdsLetters hletters ?_)
        simp only [inRange, Nat.add_sub_cancel_left, Bool.and_eq_true, decide_eq_true_eq,
          beq_iff_eq]
        omega
      -- A range without letters has no part of an identifier at all.
      · have hbar : (c == '_') = false :=
          beq_false_of_ne (by rintro rfl; exact hlow (by decide))
        have hnot : ∀ s ∈ [letters, decimalDigits, nonspacingMarks, connectors],
            s.contains c = false := fun s hs =>
          contains_eq_false (List.all_eq_true.mp hapart s hs) hlo hhi
        simp only [List.forall_mem_cons] at hnot
        obtain ⟨hletter, hdigit, hmark, hconnector, -⟩ := hnot
        simp [isIdentPart, isLetter, isDecimalDigit, isNonspacingMark, isConnector, hbar, hlow,
          hletter, hdigit, hmark, hconnector] at h
    next => exact .inl rfl

/-- In lower case a character stays what it is or is not in front of the small letters. -/
theorem toLower_eq_or_le (c : Char) : toLower c = c ∨ 'a'.toNat ≤ (toLower c).toNat := by
  rw [toLower]
  split_ifs with hlow
  · have hcase := tablesHold.lower_latin c.toNat hlow
    rwa [Char.ofNat_toNat] at hcase
  · rw [formOf, ← Array.find?_toList]
    split
    next lo hi step form hfind =>
      have hin := List.find?_some hfind
      simp only [inRange, Bool.and_eq_true, decide_eq_true_eq] at hin
      obtain ⟨hle, hvalid⟩ := tablesHold.lowerForms _ (List.mem_of_find?_eq_some hfind)
      dsimp only at hle hvalid
      have hchar : (form + (c.toNat - lo)).isValidChar := by
        rw [Nat.isValidChar]
        omega
      refine .inr ?_
      rw [Char.toNat_ofNat (form + (c.toNat - lo)), if_pos hchar]
      omega
    next => exact .inl rfl

end Text

/-! ### Identifiers -/

/-- A text that is read as one identifier, which is named by the whole of it. -/
def IsIdentifier (w : String) : Prop :=
  ∃ t last nullable, lex (Text.Utf8.bytes w) = .ok ([t, last], nullable) ∧ t.isIdent = true ∧
    t.text = w ∧ last.kind = .eof

theorem IsWord.not_byteOrderMark {w : String} (h : IsWord w) :
    Lexer.byteOrderMark.isPrefixOf (Text.Utf8.bytes w) = false := by
  rw [Bool.eq_false_iff]
  intro hmark
  obtain ⟨c, cs, hw, hc, -⟩ := h
  have hhead := Lexer.isPrefixOf_byteOrderMark hmark
  rw [hw] at hhead
  obtain rfl := Option.some.inj hhead
  rw [Text.tablesHold.signs.2] at hc
  cases hc

/-- A word is read as a single token. -/
theorem IsWord.lex_eq {w : String} (h : IsWord w) : ∃ t last nullable,
    lex (Text.Utf8.bytes w) = .ok ([t, last], nullable) ∧
      t.kind = (if keywords.contains w then .keyword else .ident) ∧ t.text = w ∧
      last.kind = .eof := by
  have hempty : Lexer.Lexes [] (· = []) := Lexer.lexes_nil rfl
  have hnil : Lexer.identTail [] = 0 := by rw [Lexer.identTail]
  obtain ⟨ts, last, nullable, hrun, hlast, t, us, rfl, hkind, htext, rfl⟩ :=
    Lexer.Lexes.word h hnil hempty {}
  rw [List.append_nil] at hrun
  refine ⟨t, last, nullable, ?_, hkind, htext, hlast⟩
  rw [lex, h.not_byteOrderMark, if_neg Bool.false_ne_true]
  exact hrun

/-- Identifiers are the words that are not reserved. -/
theorem isIdentifier_iff {w : String} : IsIdentifier w ↔ IsWord w ∧ w ∉ keywords := by
  constructor
  · rintro ⟨t, last, nullable, hlex, hident, rfl, -⟩
    -- a reserved word is read as one token too, but that is a keyword
    have hword := Lexer.isWord_of_lex hlex List.mem_cons_self hident
    refine ⟨hword, fun hmem => ?_⟩
    obtain ⟨t', last', nullable', hlex', hkind, -, -⟩ := hword.lex_eq
    obtain ⟨rfl, -⟩ := List.cons.inj (Prod.mk.inj (Except.ok.inj (hlex.symm.trans hlex'))).1
    rw [if_pos (List.contains_iff_mem.mpr hmem)] at hkind
    rw [Token.isIdent, hkind] at hident
    cases hident
  · rintro ⟨hword, hmem⟩
    obtain ⟨t, last, nullable, hlex, hkind, htext, hlast⟩ := hword.lex_eq
    rw [if_neg (mt List.contains_iff_mem.mp hmem)] at hkind
    exact ⟨t, last, nullable, hlex, by rw [Token.isIdent, hkind]; rfl, htext, hlast⟩

/-! ### Suggested names -/

section Suggested

variable {name : String} {first : Char} {rest : List Char}

/-- What follows the first character of a suggested name are parts of an identifier, and there is no
underscore among them. -/
theorem forall_mem_camelTail {cs : List Char} (h : ∀ d ∈ cs, isIdentPart d = true) (raise : Bool) :
    ∀ d ∈ camelTail raise cs, isIdentPart d = true ∧ d ≠ '_' := by
  -- along the characters; behind an underscore the next one is raised
  induction cs generalizing raise with
  | nil => simp [camelTail]
  | cons c cs ih =>
    obtain ⟨hc, hcs⟩ := List.forall_mem_cons.mp h
    rw [camelTail]
    split
    next => exact ih hcs true
    next hbar =>
      refine List.forall_mem_cons.mpr ⟨?_, ih hcs false⟩
      have hne : c ≠ '_' := fun heq => hbar (beq_iff_eq.mpr heq)
      cases raise with
      | false => exact ⟨hc, hne⟩
      | true =>
        rw [if_pos rfl]
        rcases Text.toUpper_eq_or_isLetter hc with hsame | hletter
        · rw [hsame]
          exact ⟨hc, hne⟩
        · refine ⟨by simp [isIdentPart, hletter], ?_⟩
          rintro heq
          rw [heq] at hletter
          exact absurd hletter (by decide)

theorem toList_toCamelCase (hname : name.toList.dropWhile (· == '_') = first :: rest) :
    (toCamelCase name).toList = Text.toLower first :: camelTail false rest := by
  rw [toCamelCase, hname]
  exact String.toList_ofList

theorem exists_dropWhile_of_not_isDiscard (h : isDiscard name = false) :
    ∃ first rest, name.toList.dropWhile (· == '_') = first :: rest := by
  obtain ⟨d, hd, hne⟩ := List.all_eq_false.mp h
  cases hdrop : name.toList.dropWhile (· == '_') with
  | nil => exact absurd (List.dropWhile_eq_nil_iff.mp hdrop d hd) hne
  | cons first rest => exact ⟨first, rest, rfl⟩

/-- Nothing is left of the underscores in front. -/
theorem isIdentPart_of_dropWhile (hword : IsWord name)
    (hname : name.toList.dropWhile (· == '_') = first :: rest) :
    (isIdentPart first = true ∧ first ≠ '_') ∧ ∀ d ∈ rest, isIdentPart d = true := by
  have hmem {d : Char} (hd : d ∈ first :: rest) : isIdentPart d = true :=
    hword.isIdentPart_of_mem ((List.dropWhile_suffix _).mem (hname ▸ hd))
  have hhead := List.head?_dropWhile_not (· == '_') name.toList
  rw [hname] at hhead
  exact ⟨⟨hmem List.mem_cons_self, fun heq => by simp [heq] at hhead⟩,
    fun d hd => hmem (List.mem_cons_of_mem _ hd)⟩

/-- A suggested name is in camel case if its first character is a lower-case letter; it need not be
one. -/
theorem isCamelCase_toCamelCase_iff (hword : IsWord name)
    (hname : name.toList.dropWhile (· == '_') = first :: rest) :
    isCamelCase (toCamelCase name) = true ↔ Text.isLower (Text.toLower first) = true := by
  obtain ⟨⟨hfirst, hne⟩, hrest⟩ := isIdentPart_of_dropWhile hword hname
  have hmark : first ≠ '@' := by
    rintro rfl
    rw [Text.tablesHold.signs.1] at hfirst
    cases hfirst
  have hsmall : Text.toLower first ≠ '@' ∧ Text.toLower first ≠ '_' := by
    rcases Text.toLower_eq_or_le first with hsame | hle
    · rw [hsame]
      exact ⟨hmark, hne⟩
    · constructor <;> intro heq <;> exact absurd (heq ▸ hle) (by decide)
  have htail : (camelTail false rest).contains '_' = false := by
    rw [Bool.eq_false_iff, ne_eq, List.contains_iff_mem]
    exact fun hmem => (forall_mem_camelTail hrest false _ hmem).2 rfl
  rw [isCamelCase, toList_toCamelCase hname, List.dropWhile_cons_of_neg (by simp [hsmall])]
  simp only [List.contains_cons, beq_false_of_ne hsmall.2.symm, htail, Bool.or_self,
    Bool.not_false, Bool.and_true]

/-- A name whose first character becomes a lower-case letter turns into a word. -/
theorem isWord_toCamelCase (hword : IsWord name)
    (hname : name.toList.dropWhile (· == '_') = first :: rest)
    (hlower : Text.isLower (Text.toLower first) = true) : IsWord (toCamelCase name) := by
  obtain ⟨-, hrest⟩ := isIdentPart_of_dropWhile hword hname
  refine ⟨_, _, toList_toCamelCase hname, ?_, fun d hd => (forall_mem_camelTail hrest false d hd).1⟩
  rw [isIdentStart, Text.isLetter_of_isLower hlower, Bool.or_true]

end Suggested

/-! ### Reported names -/

/-- Whether a name is reported: it is in use and not in camel case. -/
def isMiscased (name : String) : Bool := !(isDiscard name || isCamelCase name)

/-- The name of a parameter or of a local variable, and what it names. -/
structure LocalName where
  what : String
  name : String
  span : Span

/-- The names that a node gives to parameters and local variables. The parameters of a type
declaration are none of them, nor are constants. -/
def Cursor.localNames (c : Cursor) : List LocalName :=
  match c.node with
  | .param p =>
    match c.parent with
    | some (.typeDecl _) => []
    | _ => [⟨"Parameter", p.name, p.nameSpan⟩]
  | .localDecl _ _ isConst _ vars =>
    if isConst then [] else vars.map fun v => ⟨"Local variable", v.name, v.nameSpan⟩
  | .foreachStmt _ _ name span _ _ _ => [⟨"Loop variable", name, span⟩]
  | _ => []

/-- The names of parameters and local variables of a file. -/
def CompilationUnit.localNames (u : CompilationUnit Node) : List LocalName :=
  u.cursors.flatMap Cursor.localNames

/-- What is told of a name: that it is to be renamed. -/
def LocalName.renaming (s : Session) (n : LocalName) : Diagnostic :=
  { s.finding .camelCase n.span s!"{n.what} '{n.name}' should be camelCase" with
    suggestion := s!"Rename to '{toCamelCase n.name}'" }

/-- The rule tells of the names of a node one by one. -/
theorem visit_localNaming (s : Session) (c : Cursor) :
    (Rules.localNaming.visit s Rules.localNaming.start c).2 =
      (c.localNames.filter (isMiscased ·.name)).map (LocalName.renaming s) := by
  let told (n : LocalName) : List Diagnostic :=
    if isDiscard n.name || isCamelCase n.name then [] else [n.renaming s]
  have htold (ns : List LocalName) :
      (ns.filter (isMiscased ·.name)).map (LocalName.renaming s) = ns.flatMap told := by
    induction ns with
    | nil => rfl
    | cons n ns ih =>
      rw [List.flatMap_cons, ← ih, List.filter_cons]
      by_cases hname : (isDiscard n.name || isCamelCase n.name) = true
      · rw [show told n = [] from if_pos hname, if_neg (by rw [isMiscased, hname]; decide)]
        rfl
      · rw [show told n = [n.renaming s] from if_neg hname,
          if_pos (by rw [isMiscased, Bool.eq_false_iff.mpr hname]; rfl)]
        rfl
  -- A single name is told of as a list with one name.
  have hone (n : LocalName) : told n = [n].flatMap told := (List.flatMap_singleton told n).symm
  rw [htold]
  simp only [Rules.localNaming, Rule.stateless, Cursor.localNames]
  cases c.node with
  | param p =>
    have hparam := hone ⟨"Parameter", p.name, p.nameSpan⟩
    rcases c.parent with _ | parent
    · exact hparam
    · cases parent with
      | typeDecl => rfl
      | _ => exact hparam
  | localDecl span type isConst isRef vars =>
    cases isConst with
    | true => rfl
    | false =>
      let named (v : VarDeclarator Node) : LocalName := ⟨"Local variable", v.name, v.nameSpan⟩
      exact (List.flatMap_map named told vars).symm
  | foreachStmt span type name nameSpan => exact hone ⟨"Loop variable", name, nameSpan⟩
  | _ => rfl

/-- The names of a file that are not in camel case are reported, in order, and nothing else is. -/
theorem filter_findings_camelCase (u : CompilationUnit Node) (s : Session) :
    (Passes.naming.findings u s).filter (·.code == .camelCase) =
      (u.localNames.filter (isMiscased ·.name)).map (LocalName.renaming s) := by
  -- The two other rules of the set emit other codes.
  have hothers : ∀ r ∈ [Rules.typeNaming, Rules.memberNaming],
      r.Emits [.namingConvention, .pascalCase] := by
    simp only [List.forall_mem_cons]
    exact ⟨Rules.emits_typeNaming, fun s state c =>
      (Rules.emits_memberNaming s state c).mono (by decide), nofun⟩
  have hnone : ∀ r ∈ [Rules.typeNaming, Rules.memberNaming], ¬r.MayEmit .camelCase := fun r hr h =>
    absurd ((hothers r hr).mem_of_mayEmit h) (by decide)
  have hsplit : Passes.naming.findings u s =
      runRules u s ([Rules.typeNaming, Rules.memberNaming] ++ [Rules.localNaming]) := rfl
  -- What is left is the rule on local names, on a walk of its own.
  have hown : runRules u s [Rules.localNaming] =
      (u.localNames.filter (isMiscased ·.name)).map (LocalName.renaming s) := by
    rw [runRules_eq_flatMap u fun r hr c => by obtain rfl := List.mem_singleton.mp hr; rfl]
    simp only [List.flatMap_singleton, visit_localNaming, CompilationUnit.localNames,
      List.filter_flatMap, List.map_flatMap]
  rw [hsplit, filter_runRules_append u s (.inl hnone), hown,
    (emits_runRules u s hothers).filter_eq_nil (by decide), List.nil_append]
  refine Emits.filter_eq_self ?_
  rw [← hown]
  exact emits_runRules u s fun r hr => by
    obtain rfl := List.mem_singleton.mp hr
    exact Rules.emits_localNaming

/-- A name that is reported is to be replaced by the one that is made from it in camel case. This is
an identifier in camel case exactly if it is no reserved word and the first character behind the
underscores in front has become a lower-case letter. -/
theorem suggested_name_accepted_iff (u : CompilationUnit Node) (s : Session) :
    (Passes.naming.findings u s).filter (·.code == .camelCase) =
      (u.localNames.filter (isMiscased ·.name)).map (LocalName.renaming s) ∧
    ∀ name, IsWord name → isMiscased name = true →
      (IsIdentifier (toCamelCase name) ∧ isCamelCase (toCamelCase name) = true ↔
        toCamelCase name ∉ keywords ∧
          ∃ first rest, name.toList.dropWhile (· == '_') = first :: rest ∧
            Text.isLower (Text.toLower first) = true) := by
  refine ⟨filter_findings_camelCase u s, fun name hword hmiscased => ?_⟩
  have hused : isDiscard name = false := by
    rw [isMiscased, Bool.not_eq_true', Bool.or_eq_false_iff] at hmiscased
    exact hmiscased.1
  obtain ⟨first, rest, hname⟩ := exists_dropWhile_of_not_isDiscard hused
  rw [isIdentifier_iff, isCamelCase_toCamelCase_iff hword hname]
  constructor
  · rintro ⟨⟨-, hfree⟩, hlower⟩
    exact ⟨hfree, first, rest, hname, hlower⟩
  · rintro ⟨hfree, first', rest', hname', hlower⟩
    obtain ⟨rfl, -⟩ := List.cons.inj (hname.symm.trans hname')
    exact ⟨⟨isWord_toCamelCase hword hname hlower, hfree⟩, hlower⟩

/-- A parameter with underscores in front and inside. -/
def underscoredNameText : List UInt8 :=
  "class C\x7bvoid M(int _Total_Count)\x7b\x7d\x7d".toList.map Lexer.ascii

theorem underscoredNameText_localNames : (parse underscoredNameText).toOption.any (fun u =>
    u.localNames.map (·.name) == ["_Total_Count"]) = true := by
  rw [show underscoredNameText = _ from Lexer.ascii_ofList _]
  decide +kernel

/-- All underscores go, and the name is acceptable. -/
theorem suggested_name_accepted_total_count : ∃ u, parse underscoredNameText = .ok u ∧
    ∀ s, (∃ n ∈ u.localNames, n.name = "_Total_Count" ∧
        n.renaming s ∈ (Passes.naming.findings u s).filter (·.code == .camelCase)) ∧
      toCamelCase "_Total_Count" = "totalCount" ∧ IsIdentifier "totalCount" ∧
        isCamelCase "totalCount" = true := by
  have hword : IsWord "_Total_Count" :=
    ⟨'_', "Total_Count".toList, by decide, by decide, List.all_eq_true.mp (by decide)⟩
  have hmiscased : isMiscased "_Total_Count" = true := by decide
  have hname : toCamelCase "_Total_Count" = "totalCount" := by decide
  obtain ⟨u, hparse, hfacts⟩ := exists_parse_of_any underscoredNameText_localNames
  have hnames : u.localNames.map (·.name) = ["_Total_Count"] := eq_of_beq hfacts
  obtain ⟨n, hn, hown⟩ := List.mem_map.mp (hnames ▸ List.mem_singleton_self "_Total_Count")
  refine ⟨u, hparse, fun s => ?_⟩
  obtain ⟨hfound, haccepted⟩ := suggested_name_accepted_iff u s
  have haccepted := (haccepted "_Total_Count" hword hmiscased).mpr
    ⟨by decide, 'T', "otal_Count".toList, by decide, by decide⟩
  rw [hname] at haccepted
  refine ⟨⟨n, hn, hown, ?_⟩, hname, haccepted⟩
  rw [hfound]
  exact List.mem_map_of_mem (List.mem_filter.mpr ⟨hn, by rw [hown]; exact hmiscased⟩)

/-- A parameter with a digit behind the underscore. -/
def digitNameText : List UInt8 := "class C\x7bvoid M(int _1)\x7b\x7d\x7d".toList.map Lexer.ascii

theorem digitNameText_localNames : (parse digitNameText).toOption.any (fun u =>
    u.localNames.map (·.name) == ["_1"]) = true := by
  rw [show digitNameText = _ from Lexer.ascii_ofList _]
  decide +kernel

/-- The parameter is an identifier, but it is to be renamed to something that is none. -/
theorem suggested_name_not_identifier : ∃ u, parse digitNameText = .ok u ∧ IsIdentifier "_1" ∧
    (∃ n ∈ u.localNames, n.name = "_1" ∧
      ∀ s, n.renaming s ∈ Passes.naming.findings u s ∧
        (n.renaming s).suggestion = "Rename to '1'") ∧
    ¬IsIdentifier "1" ∧ isCamelCase "1" = false := by
  obtain ⟨u, hparse, hfacts⟩ := exists_parse_of_any digitNameText_localNames
  have hnames : u.localNames.map (·.name) = ["_1"] := eq_of_beq hfacts
  obtain ⟨n, hn, hname⟩ := List.mem_map.mp (hnames ▸ List.mem_singleton_self "_1")
  have hword : IsWord "_1" :=
    ⟨'_', ['1'], by decide, by decide, List.all_eq_true.mp (by decide)⟩
  refine ⟨u, hparse, isIdentifier_iff.mpr ⟨hword, by decide⟩, ⟨n, hn, hname, fun s => ⟨?_, ?_⟩⟩, ?_,
    by decide⟩
  -- The name is found among those that are reported, as the theorem on the rule lists them.
  · have hfound : n.renaming s ∈
        (Passes.naming.findings u s).filter (·.code == .camelCase) := by
      rw [filter_findings_camelCase]
      exact List.mem_map_of_mem (List.mem_filter.mpr ⟨hn, by rw [hname]; decide⟩)
    exact (List.mem_filter.mp hfound).1
  · have hsuggested : toCamelCase "_1" = "1" := by decide
    rw [LocalName.renaming, hname, hsuggested]
    rfl
  · rw [isIdentifier_iff]
    rintro ⟨⟨c, cs, hchars, hc, -⟩, -⟩
    obtain ⟨rfl, -⟩ := List.cons.inj (hchars.symm.trans (by decide : "1".toList = ['1']))
    exact absurd hc (by decide)

end CSharpAudit
