import CSharpAudit.Files.Glob
import Mathlib.Data.List.Basic

/-!
# Classes in patterns

What a class holds, and where the pattern goes on behind it, is told by the class alone: if its end
is found, it does not matter what follows in the pattern.

## Main definitions

* `Glob.Class.upper`, `Glob.Class.lower?`, `Glob.Class.single` — how a class is read

## Main results

* `Glob.Class.suffix_of_fits` — the pattern goes on with a part of what it was
* `Glob.Class.fit_append` — a class in a longer pattern
-/

namespace CSharpAudit.Glob

variable {p q : List Char} {x c : Char}

/-- Behind a class stands a rest of the pattern. -/
theorem behindClass?_suffix (h : behindClass? p = some q) : q <:+ p := by
  fun_induction behindClass? p with
  | case1 => cases h
  | case2 => cases h
  | case3 c rest ih => exact (ih h).trans ((List.suffix_cons _ _).trans (List.suffix_cons _ _))
  | case4 rest =>
    cases h
    exact List.suffix_cons _ _
  | case5 c rest _ _ ih => exact (ih h).trans (List.suffix_cons _ _)

theorem behindClass?_append (t : List Char) (h : behindClass? p = some q) :
    behindClass? (p ++ t) = some (q ++ t) := by
  fun_induction behindClass? p with
  | case1 => cases h
  | case2 => cases h
  | case3 c rest ih => exact ih h
  | case4 rest =>
    cases h
    rfl
  | case5 c rest hescape hclose ih =>
    rw [List.cons_append, behindClass?]
    · exact ih h
    · exact hescape
    · exact hclose

namespace Class

/-! ### How a class is read -/

theorem next_suffix : (next p).2 <:+ p := by
  cases p with
  | nil => exact List.suffix_refl _
  | cons c rest => exact List.suffix_cons _ _

/-- A character of a class is read without a look behind it. -/
theorem next_append (t : List Char) (h : (next p).2 ≠ []) :
    next (p ++ t) = ((next p).1, (next p).2 ++ t) := by
  cases p with
  | nil => exact absurd rfl h
  | cons c rest => rfl

/-- The upper end of a range, and what follows it. -/
def upper (p : List Char) : Char × List Char :=
  next (if p.head? == some '\\' then p.drop 1 else p)

/-- A character of a class, which may be escaped, and what follows it. -/
def single (c : Char) (p : List Char) : Char × List Char := if c == '\\' then next p else (c, p)

theorem upper_suffix : (upper p).2 <:+ p := by
  rw [upper]
  split
  · exact next_suffix.trans (List.drop_suffix 1 p)
  · exact next_suffix

theorem single_suffix : (single c p).2 <:+ p := by
  rw [single]
  split
  · exact next_suffix
  · exact List.suffix_refl _

theorem upper_append (t : List Char) (h : (upper p).2 ≠ []) :
    upper (p ++ t) = ((upper p).1, (upper p).2 ++ t) := by
  cases p with
  | nil => exact absurd rfl h
  | cons c rest =>
    simp only [upper, List.head?_cons, List.cons_append, List.drop_one, List.tail_cons] at h ⊢
    split
    · rename_i hc
      rw [if_pos hc] at h
      exact next_append t h
    · rfl

theorem single_append (t : List Char) (h : (single c p).2 ≠ []) :
    single c (p ++ t) = ((single c p).1, (single c p).2 ++ t) := by
  rw [single] at h ⊢
  rw [single]
  split
  · rename_i hc
    rw [if_pos hc] at h
    exact next_append t h
  · rfl

/-- The lower end of a range, if a class goes on with a hyphen and an upper end. -/
def lower? (last : Option Char) (c : Char) (p : List Char) : Option Char :=
  last.filter fun _ => c == '-' && p.head?.any (· != ']')

/-- A range holds what lies between its bounds. -/
theorem find_range {fuel : Nat} {last : Option Char} {low : Char} (hclose : c ≠ ']')
    (hlow : lower? last c p = some low) : find x (fuel + 1) last (c :: p) =
      if low ≤ x && x ≤ (upper p).1 then (true, (upper p).2) else find x fuel none (upper p).2 := by
  obtain ⟨rfl, hhyphen⟩ := Option.filter_eq_some_iff.mp hlow
  rw [find, if_neg (by simpa using hclose)]
  · rfl
  · exact hhyphen

/-- Elsewhere a class holds the characters that it lists. -/
theorem find_single {fuel : Nat} {last : Option Char} (hclose : c ≠ ']')
    (hlow : lower? last c p = none) : find x (fuel + 1) last (c :: p) =
      if (single c p).1 == x then (true, (single c p).2)
      else find x fuel (some (single c p).1) (single c p).2 := by
  rw [find, if_neg (by simpa using hclose)]
  · rfl
  · rintro low rfl hhyphen
    simp [lower?, hhyphen] at hlow

/-- What is left by a class is a rest of the pattern. -/
theorem find_suffix (fuel : Nat) (last : Option Char) : (find x fuel last p).2 <:+ p := by
  -- on the fuel, where each round takes one character or one range off the pattern
  induction fuel generalizing p last with
  | zero => cases last <;> exact List.suffix_refl _
  | succ fuel ih =>
    cases p with
    | nil => cases last <;> exact List.suffix_refl _
    | cons c rest =>
      have hupper := (upper_suffix (p := rest)).trans (List.suffix_cons c rest)
      have hsingle := (single_suffix (c := c) (p := rest)).trans (List.suffix_cons c rest)
      by_cases hclose : c = ']'
      · subst hclose
        exact List.suffix_refl _
      cases hlow : lower? last c rest with
      | some low =>
        rw [find_range hclose hlow]
        split
        · exact hupper
        · exact (ih none).trans hupper
      | none =>
        rw [find_single hclose hlow]
        split
        · exact hsingle
        · exact (ih _).trans hsingle

/-- A class whose end is found does not depend on what follows. -/
theorem find_append (t : List Char) {fuel fuel' : Nat} {last : Option Char}
    (hfuel : p.length ≤ fuel) (hfuel' : (p ++ t).length ≤ fuel')
    (h : (find x fuel last p).2 ≠ []) :
    find x fuel' last (p ++ t) = ((find x fuel last p).1, (find x fuel last p).2 ++ t) := by
  -- both searches have fuel for all that is left, so neither stops before the class does
  induction fuel generalizing p last fuel' with
  | zero =>
    obtain rfl := List.length_eq_zero_iff.mp (Nat.le_zero.mp hfuel)
    cases last <;> exact absurd rfl h
  | succ fuel ih =>
    cases p with
    | nil => cases last <;> exact absurd rfl h
    | cons c rest =>
      obtain ⟨fuel', rfl⟩ := Nat.exists_eq_add_one_of_ne_zero
        (Nat.ne_of_gt (Nat.lt_of_lt_of_le (Nat.zero_lt_succ _) hfuel'))
      have hupper := (upper_suffix (p := rest)).length_le
      have hsingle := (single_suffix (c := c) (p := rest)).length_le
      simp only [List.cons_append, List.length_cons, List.length_append] at hfuel hfuel'
      -- what is read ends before the pattern does, as something is left
      have hne {q : List Char} {last : Option Char} (h : (find x fuel last q).2 ≠ []) : q ≠ [] :=
        fun hq => h (List.suffix_nil.mp (hq ▸ find_suffix fuel last))
      have hlower (hrest : rest ≠ []) : lower? last c (rest ++ t) = lower? last c rest := by
        rw [lower?, List.head?_append_of_ne_nil _ hrest, lower?]
      by_cases hclose : c = ']'
      · subst hclose
        rfl
      cases hlow : lower? last c rest with
      | some low =>
        rw [find_range hclose hlow] at h
        have hrest : rest ≠ [] := by
          rintro rfl
          simp [lower?] at hlow
        rw [List.cons_append, find_range hclose hlow,
          find_range hclose ((hlower hrest).trans hlow)]
        split at h
        · rename_i hx
          rw [upper_append t h, if_pos hx, if_pos hx]
        · rename_i hx
          rw [upper_append t (hne h), if_neg hx, if_neg hx]
          exact ih (by omega) (by simp only [List.length_append]; omega) h
      | none =>
        rw [find_single hclose hlow] at h
        have hrest : rest ≠ [] := by
          rintro rfl
          have hnil := List.suffix_nil.mp (single_suffix (c := c) (p := []))
          split at h
          · exact h hnil
          · exact hne h hnil
        rw [List.cons_append, find_single hclose hlow,
          find_single hclose ((hlower hrest).trans hlow)]
        split at h
        · rename_i hx
          rw [single_append t h, if_pos hx, if_pos hx]
        · rename_i hx
          rw [single_append t (hne h), if_neg hx, if_neg hx]
          exact ih (by omega) (by simp only [List.length_append]; omega) h

/-! ### What comes of a class -/

/-- Whether a class is negated, and the rest of it. -/
def opened : List Char → Bool × List Char
  | '!' :: rest | '^' :: rest => (true, rest)
  | rest => (false, rest)

theorem opened_suffix : (opened p).2 <:+ p := by
  fun_cases opened p with
  | case1 => exact List.suffix_cons _ _
  | case2 => exact List.suffix_cons _ _
  | case3 => exact List.suffix_refl _

/-- Whether a class is negated is told by its first characters. -/
theorem opened_append (t : List Char) (h : (opened p).2 ≠ []) :
    opened (p ++ t) = ((opened p).1, (opened p).2 ++ t) := by
  fun_cases opened p with
  | case1 => rfl
  | case2 => rfl
  | case3 _ hbang hcaret =>
    cases p with
    | nil => exact absurd rfl h
    | cons c rest =>
      rw [List.cons_append, opened]
      · exact fun rest' h => hbang rest (by simp_all)
      · exact fun rest' h => hcaret rest (by simp_all)

/-- What comes of a class in a longer pattern. -/
def Outcome.followedBy (t : List Char) : Outcome → Outcome
  | unclosed => unclosed
  | unfit pattern => unfit (pattern ++ t)
  | fits pattern => fits (pattern ++ t)

/-- A class is opened, then looked through. -/
theorem fit_eq (x : Char) (p : List Char) : fit x p =
    if (opened p).2.head?.all (· == ']') then .unclosed
    else
      let (found, rest) := find x (opened p).2.length none (opened p).2
      if found == (opened p).1 then if rest.isEmpty then .unclosed else .unfit rest
      else match behindClass? rest with
        | none => .unclosed
        | some rest => .fits rest := rfl

/-- The pattern goes on with a part of what it was. -/
theorem suffix_of_fits (h : fit x p = .fits q) : q <:+ p := by
  rw [fit_eq] at h
  split at h
  · cases h
  dsimp only at h
  split at h
  · split at h <;> cases h
  · split at h
    · cases h
    · rename_i hbehind
      cases h
      exact (behindClass?_suffix hbehind).trans ((find_suffix _ _).trans opened_suffix)

/-- A class that is closed does not depend on what follows. -/
theorem fit_append (t : List Char) (h : fit x p ≠ .unclosed) :
    fit x (p ++ t) = (fit x p).followedBy t := by
  -- What the class reads on its way is never empty, since it would be unclosed then.
  have hbody : (opened p).2 ≠ [] := by
    intro hnil
    simp [fit_eq, hnil] at h
  have hrest : (find x (opened p).2.length none (opened p).2).2 ≠ [] := by
    intro hnil
    rw [fit_eq] at h
    simp [hnil, behindClass?] at h
  rw [fit_eq] at h
  rw [fit_eq, fit_eq, opened_append t hbody, List.head?_append_of_ne_nil _ hbody,
    find_append t (Nat.le_refl _) (Nat.le_refl _) hrest]
  split
  · rfl
  dsimp only
  split
  · rw [if_neg (by simp [hrest]), if_neg (by simp [hrest])]
    rfl
  · rename_i hclosed hfound
    rw [if_neg hclosed] at h
    dsimp only at h
    rw [if_neg hfound] at h
    cases hbehind : behindClass? (find x (opened p).2.length none (opened p).2).2 with
    | none => simp [hbehind] at h
    | some q =>
      rw [behindClass?_append t hbehind]
      rfl

end Class

end CSharpAudit.Glob
