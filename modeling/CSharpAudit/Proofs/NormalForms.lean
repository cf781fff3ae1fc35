import CSharpAudit.Text.NormalForm

/-!
# Normal forms without blanks

A blank is no part of what another character is equivalent to. So a text without blanks has none in
its normal form either, and the normal form of a text that is not empty is not empty.

## Main definitions

* `Text.Unbroken` — a text that is not empty and holds no blank
* `Text.NormalForm.Blankless` — characters of which none is a blank

## Main results

* `Text.NormalForm.blankless_decompose`, `Text.NormalForm.blankless_compose` — taking apart and
  composing bring in no blank
* `Text.unbroken_normalize` — normal forms are as unbroken as what they are made of
-/

namespace CSharpAudit.Text

/-- A text that is not empty and holds no blank. -/
structure Unbroken (s : String) : Prop where
  ne_empty : s ≠ ""
  notMem : ' ' ∉ s.toList

namespace NormalForm

open CSharpAudit.Text.Composition

/-- Characters of which none is a blank. -/
def Blankless (cs : List Nat) : Prop := ∀ c ∈ cs, c ≠ 0x20

variable {a b c n fuel marks : Nat} {cs : List Nat} {x : Item} {xs : List Item}

/-- Two lists in a row have a blank if one of them has. -/
theorem blankless_append {cs' : List Nat} :
    Blankless (cs ++ cs') ↔ Blankless cs ∧ Blankless cs' := List.forall_mem_append

theorem blankless_cons : Blankless (c :: cs) ↔ c ≠ 0x20 ∧ Blankless cs := List.forall_mem_cons

theorem blankless_reverse : Blankless cs.reverse ↔ Blankless cs := by simp [Blankless]

/-! ### The tables -/

/-- No pair in the tables has a blank in it. -/
theorem all_pairs : ([composedPairs1, composedPairs2, composedPairs3, splitPairs].all fun ps =>
    ps.toList.all fun p => p.1 != 0x20 && p.2.1 != 0x20 && p.2.2 != 0x20) = true := by
  decide +kernel

/-- No single equivalent in the tables is a blank. -/
theorem all_singles : ([singles, longSingles].all fun ps =>
    ps.toList.all fun p => p.2.toList.all (· != 0x20)) = true := by
  decide +kernel

theorem ne_of_mem_pairs {p : Nat × Nat × Nat} (hp : p ∈ composedPairs ∨ p ∈ splitPairs) :
    p.1 ≠ 0x20 ∧ p.2.1 ≠ 0x20 ∧ p.2.2 ≠ 0x20 := by
  have hall := all_pairs
  simp only [List.all_cons, List.all_nil, Bool.and_true, Bool.and_eq_true, List.all_eq_true,
    Array.mem_toList_iff, bne_iff_ne, and_assoc] at hall
  obtain ⟨h₁, h₂, h₃, h₄⟩ := hall
  rw [composedPairs, Array.mem_append, Array.mem_append, or_assoc, or_assoc] at hp
  rcases hp with hp | hp | hp | hp
  · exact h₁ p hp
  · exact h₂ p hp
  · exact h₃ p hp
  · exact h₄ p hp

/-- No character is taken apart into a blank and something else. -/
theorem pair?_ne (h : pair? n = some (a, b)) : a ≠ 0x20 ∧ b ≠ 0x20 := by
  obtain ⟨p, hp, hab⟩ := Option.map_eq_some_iff.mp h
  obtain ⟨rfl, rfl⟩ : p.2.1 = a ∧ p.2.2 = b := by rw [hab]; exact ⟨rfl, rfl⟩
  refine (ne_of_mem_pairs ?_).2
  exact (Option.or_eq_some_iff.mp hp).imp Array.mem_of_find?_eq_some
    fun h => Array.mem_of_find?_eq_some h.2

/-- No two characters compose to a blank. -/
theorem compose?_ne (h : compose? a b = some c) : c ≠ 0x20 := by
  obtain ⟨p, hp, rfl⟩ := Option.map_eq_some_iff.mp h
  exact (ne_of_mem_pairs (.inl (Array.mem_of_find?_eq_some hp))).1

/-- No character is equivalent to a blank alone. -/
theorem single?_ne (h : single? n = some a) : a ≠ 0x20 := by
  obtain ⟨⟨first, others⟩, hmem, ha⟩ := Array.exists_of_findSome?_eq_some h
  have ha := Array.mem_of_getElem? (Option.ite_none_right_eq_some.mp ha).2
  have hall := all_singles
  simp only [List.all_cons, List.all_nil, Bool.and_true, Bool.and_eq_true, List.all_eq_true,
    Array.mem_toList_iff, bne_iff_ne] at hall
  rcases Array.mem_append.mp hmem with hmem | hmem
  · exact hall.1 _ hmem a ha
  · exact hall.2 _ hmem a ha

/-! ### Taking apart -/

theorem leadBase_le_of_mem (hc : c ∈ syllableLetters n) : leadBase ≤ c := by
  have hvowel : leadBase ≤ vowelBase := by decide
  have htrail : leadBase ≤ trailBase := by decide
  rcases List.mem_append.mp hc with hc | hc
  · rcases List.mem_cons.mp hc with rfl | hc
    · exact Nat.le_add_right _ _
    · exact List.mem_singleton.mp hc ▸ Nat.le_add_right_of_le hvowel
  · split at hc
    · exact absurd hc List.not_mem_nil
    · exact List.mem_singleton.mp hc ▸ Nat.le_add_right_of_le htrail

/-- The letters of a syllable are no blanks. -/
theorem blankless_syllableLetters (n : Nat) : Blankless (syllableLetters n) :=
  fun _ hc heq => absurd (leadBase_le_of_mem hc) (heq ▸ by decide)

theorem syllableLetters_ne_nil (n : Nat) : syllableLetters n ≠ [] := by simp [syllableLetters]

theorem syllableOf?_ne (h : syllableOf? a b = some c) : c ≠ 0x20 := by
  unfold syllableOf? at h
  split at h
  · rw [← Option.some.inj h, syllableBase]
    omega
  split at h
  · next hopen =>
    rw [← Option.some.inj h]
    have ha : syllableBase ≤ a := by
      simp only [isOpenSyllable, isSyllable, Bool.and_eq_true, decide_eq_true_eq] at hopen
      exact hopen.1.1.1.1
    rw [syllableBase] at ha
    omega
  · exact absurd h (Option.some_ne_none c).symm

/-- One step of taking apart brings in no blank. -/
theorem blankless_takeApart {deeper : Nat → List Nat}
    (hdeeper : ∀ a, a ≠ 0x20 → Blankless (deeper a)) (hn : n ≠ 0x20) :
    Blankless (takeApart deeper n) := by
  unfold takeApart
  split
  · exact List.forall_mem_singleton.mpr hn
  split
  · exact blankless_syllableLetters n
  split
  · next hpair =>
    obtain ⟨ha, hb⟩ := pair?_ne hpair
    exact blankless_append.mpr ⟨hdeeper _ ha, hdeeper _ hb⟩
  split
  · next hsingle => exact hdeeper _ (single?_ne hsingle)
  · exact List.forall_mem_singleton.mpr hn

/-- One step of taking apart leaves something. -/
theorem takeApart_ne_nil {deeper : Nat → List Nat} (hdeeper : ∀ a, deeper a ≠ []) (n : Nat) :
    takeApart deeper n ≠ [] := by
  unfold takeApart
  split
  · exact List.cons_ne_nil _ _
  split
  · exact syllableLetters_ne_nil n
  split
  · exact List.append_ne_nil_of_left_ne_nil (hdeeper _) _
  split
  · exact hdeeper _
  · exact List.cons_ne_nil _ _

theorem blankless_decomposeWith (hn : n ≠ 0x20) : Blankless (decomposeWith fuel n) := by
  induction fuel generalizing n with
  | zero => exact List.forall_mem_singleton.mpr hn
  | succ fuel ih => exact blankless_takeApart (fun _ => ih) hn

theorem decomposeWith_ne_nil (fuel n : Nat) : decomposeWith fuel n ≠ [] := by
  induction fuel generalizing n with
  | zero => exact List.cons_ne_nil _ _
  | succ fuel ih => exact takeApart_ne_nil ih n

/-- A character that is no blank is taken apart into others that are none. -/
theorem blankless_decompose (hn : n ≠ 0x20) : Blankless (decompose n) := blankless_decomposeWith hn

/-! ### Composing -/

namespace Composing

variable {s : Composing}

/-- The characters of a state are those behind, at and before its base. -/
theorem mem_chars : c ∈ s.chars ↔ ∃ x, (x ∈ s.behind ∨ x = s.base ∨ x ∈ s.before) ∧ x.char = c := by
  simp only [chars, List.mem_map, List.mem_reverse, List.mem_append, List.mem_cons]

theorem chars_rebase : s.rebase.chars = s.chars := by
  unfold rebase
  split
  · next x rest hbehind =>
    split
    · simp [chars, hbehind]
    · rfl
  · rfl

/-- A character that is put aside brings in no blank. -/
theorem blankless_push (hs : Blankless s.chars) (hx : x.char ≠ 0x20) :
    Blankless (s.push x).chars := by
  intro c hc
  obtain ⟨y, hy, rfl⟩ := mem_chars.mp hc
  rw [push, List.mem_cons] at hy
  rcases hy with (rfl | hy) | hy
  · exact hx
  · exact hs _ (mem_chars.mpr ⟨y, .inl hy, rfl⟩)
  · exact hs _ (mem_chars.mpr ⟨y, .inr hy, rfl⟩)

/-- A character that is composed with the base brings in no blank. -/
theorem blankless_join (hs : Blankless s.chars) (hx : x.char ≠ 0x20) {composed : Option Nat}
    (hcomposed : ∀ c, composed = some c → c ≠ 0x20) : Blankless (s.join x composed).chars := by
  unfold join
  split
  · next c =>
    split
    · exact blankless_push hs hx
    · intro d hd
      obtain ⟨y, hy, rfl⟩ := mem_chars.mp hd
      rcases hy with hy | rfl | hy
      · exact hs _ (mem_chars.mpr ⟨y, .inl hy, rfl⟩)
      · exact hcomposed c rfl
      · exact hs _ (mem_chars.mpr ⟨y, .inr (.inr hy), rfl⟩)
  · exact blankless_push hs hx

theorem blankless_addLetters (hs : Blankless s.chars) (hxs : ∀ x ∈ xs, x.char ≠ 0x20) :
    Blankless (s.addLetters xs).chars := by
  induction xs generalizing s with
  | nil => exact hs
  | cons x xs ih =>
    obtain ⟨hx, hxs⟩ := List.forall_mem_cons.mp hxs
    exact ih (blankless_join (chars_rebase.symm ▸ hs) hx fun _ => syllableOf?_ne) hxs

/-- One more character brings in no blank. -/
theorem blankless_add (hs : Blankless s.chars) (hxs : ∀ x ∈ xs, x.char ≠ 0x20) :
    Blankless (s.add xs).chars := by
  induction xs generalizing s with
  | nil => exact hs
  | cons x xs ih =>
    obtain ⟨hx, hrest⟩ := List.forall_mem_cons.mp hxs
    rw [add]
    split
    · exact blankless_addLetters hs hxs
    split
    · exact ih (blankless_join (chars_rebase.symm ▸ hs) hx fun _ => compose?_ne) hrest
    · exact ih (blankless_push hs hx) hrest

end Composing

/-- Composing brings in no blank. -/
theorem blankless_compose (hxs : ∀ x ∈ xs, x.char ≠ 0x20) : Blankless (compose xs) := by
  unfold compose
  -- the items are held last first
  have hreverse : ∀ x ∈ xs.reverse, x.char ≠ 0x20 := fun x hx => hxs x (List.mem_reverse.mp hx)
  split
  · exact List.forall_mem_nil _
  · next x ys heq =>
    rw [heq] at hreverse
    obtain ⟨hx, hys⟩ := List.forall_mem_cons.mp hreverse
    exact Composing.blankless_add (List.forall_mem_singleton.mpr hx) hys

/-- Something composes to something. -/
theorem compose_ne_nil (h : xs ≠ []) : compose xs ≠ [] := by
  unfold compose
  split
  · next heq => exact absurd (List.reverse_eq_nil_iff.mp heq) h
  · simp [Composing.chars]

/-! ### Segments -/

/-- Putting a character in order neither adds nor drops one. -/
theorem mem_insertItem {y : Item} : y ∈ insertItem x xs ↔ y = x ∨ y ∈ xs := by
  induction xs with
  | nil => simp [insertItem]
  | cons z zs ih =>
    rw [insertItem]
    split
    · rw [List.mem_cons, ih, List.mem_cons]
      exact or_left_comm
    · exact List.mem_cons

theorem insertItem_ne_nil (x : Item) (xs : List Item) : insertItem x xs ≠ [] :=
  List.ne_nil_of_mem (mem_insertItem.mpr (.inl rfl))

namespace Segment

variable {s : Segment} {t : Traits} {r : Segment × Nat × List Nat}

/-- A segment without a blank in it or before it. -/
structure Blankless (s : Segment) : Prop where
  done : NormalForm.Blankless s.done
  items : ∀ x ∈ s.items, x.char ≠ 0x20

/-- A segment with a character in it or before it. -/
def Filled (s : Segment) : Prop := s.done ≠ [] ∨ s.items ≠ []

/-- A segment that is finished keeps its characters. -/
theorem Blankless.flush (hs : s.Blankless) : s.flush.Blankless where
  done := blankless_append.mpr ⟨blankless_reverse.mpr (blankless_compose hs.items), hs.done⟩
  items := List.forall_mem_nil _

theorem Filled.flush (hs : s.Filled) : s.flush.done ≠ [] := by
  rcases hs with h | h
  · exact List.append_ne_nil_of_right_ne_nil _ h
  · exact List.append_ne_nil_of_left_ne_nil (by simpa using compose_ne_nil h) _

theorem Blankless.insert (hs : s.Blankless) (hx : x.char ≠ 0x20) :
    Blankless { s with items := insertItem x s.items } where
  done := hs.done
  items y hy := (mem_insertItem.mp hy).elim (fun heq => heq ▸ hx) (hs.items y)

/-- One more part of a character brings in no blank. -/
theorem Blankless.addPart (hs : s.Blankless) (hn : n ≠ 0x20) : (s.addPart n).Blankless := by
  unfold Segment.addPart
  dsimp only
  split
  · exact Blankless.insert hs.flush hn
  · exact Blankless.insert hs hn

theorem items_addPart_ne_nil (s : Segment) (n : Nat) : (s.addPart n).items ≠ [] :=
  insertItem_ne_nil _ _

theorem Blankless.foldl_addPart (hs : s.Blankless) (hcs : NormalForm.Blankless cs) :
    (cs.foldl Segment.addPart s).Blankless := by
  induction cs generalizing s with
  | nil => exact hs
  | cons c cs ih =>
    obtain ⟨hc, hcs⟩ := blankless_cons.mp hcs
    exact ih (hs.addPart hc) hcs

theorem items_foldl_addPart_ne_nil (s : Segment) (h : cs ≠ []) :
    (cs.foldl Segment.addPart s).items ≠ [] := by
  rw [← List.dropLast_concat_getLast h, List.foldl_append]
  exact items_addPart_ne_nil _ _

/-- One more character of the text brings in no blank. -/
theorem Blankless.add (hs : s.Blankless) (hn : n ≠ 0x20) : (s.add n t).Blankless := by
  unfold Segment.add
  split
  · refine ⟨hs.done, List.forall_mem_append.mpr ⟨?_, hs.items⟩⟩
    exact List.forall_mem_map.mpr (blankless_reverse.mpr (blankless_syllableLetters n))
  dsimp only
  split
  · exact hs.insert hn
  · exact hs.foldl_addPart (blankless_decompose hn)

theorem items_add_ne_nil (s : Segment) (n : Nat) (t : Traits) : (s.add n t).items ≠ [] := by
  unfold Segment.add
  split
  · simp [syllableLetters_ne_nil]
  dsimp only
  split
  · exact insertItem_ne_nil _ _
  · exact items_foldl_addPart_ne_nil s (decomposeWith_ne_nil _ n)

/-- The joiner is no blank. -/
theorem Blankless.addJoiner (hs : s.Blankless) : s.addJoiner.Blankless := hs.insert (by decide)

theorem filled_addJoiner (s : Segment) : s.addJoiner.Filled := .inr (insertItem_ne_nil _ _)

/-- What is read of a text without blanks holds none, and what is left is the end of the text. -/
theorem blankless_read (hs : s.Blankless) (hcs : NormalForm.Blankless cs)
    (hr : s.read marks cs = r) : r.1.Blankless ∧ NormalForm.Blankless r.2.2 := by
  subst hr
  induction cs generalizing s marks with
  | nil => exact ⟨hs.flush, hcs⟩
  | cons c cs ih =>
    rw [read]
    split
    · exact ⟨hs.flush, hcs⟩
    · exact ⟨hs.addJoiner.flush, hcs⟩
    · obtain ⟨hc, hcs⟩ := blankless_cons.mp hcs
      exact ih (hs.add hc) hcs

/-- A segment that holds something is read to something. -/
theorem done_read_ne_nil (hs : s.Filled) (hr : s.read marks cs = r) : r.1.done ≠ [] := by
  subst hr
  induction cs generalizing s marks with
  | nil => exact hs.flush
  | cons c cs ih =>
    rw [read]
    split
    · exact hs.flush
    · exact (filled_addJoiner s).flush
    · exact ih (.inr (items_add_ne_nil s c _))

/-- The first character of a segment brings in no blank. -/
theorem blankless_readFirst (hs : s.Blankless) (hcs : NormalForm.Blankless cs)
    (hr : s.readFirst marks cs = r) : r.1.Blankless ∧ NormalForm.Blankless r.2.2 := by
  subst hr
  cases cs with
  | nil => exact ⟨hs, hcs⟩
  | cons c cs =>
    obtain ⟨hc, hrest⟩ := blankless_cons.mp hcs
    rw [readFirst]
    split
    · exact ⟨hs.addJoiner.flush, hcs⟩
    · exact blankless_read (hs.add hc) hrest rfl
    · exact blankless_read (hs.add hc) hrest rfl

theorem done_readFirst_ne_nil (s : Segment) (hcs : cs ≠ []) (hr : s.readFirst marks cs = r) :
    r.1.done ≠ [] := by
  subst hr
  obtain ⟨c, cs, rfl⟩ := List.exists_cons_of_ne_nil hcs
  rw [readFirst]
  split
  · exact (filled_addJoiner s).flush
  · exact done_read_ne_nil (.inr (items_add_ne_nil s c _)) rfl
  · exact done_read_ne_nil (.inr (items_add_ne_nil s c _)) rfl

end Segment

/-! ### Normalizing -/

/-- All segments in a row have no blank. -/
theorem blankless_normalizeFrom {done : List Nat} (hdone : Blankless done) (hcs : Blankless cs) :
    Blankless (normalizeFrom fuel done marks cs) := by
  fun_induction normalizeFrom fuel done marks cs with
  | case1 => exact blankless_reverse.mpr hdone
  | case2 => exact blankless_reverse.mpr hdone
  | case3 fuel done marks cs hne s marks' rest hread stable ih =>
    obtain ⟨hs, hrest⟩ := Segment.blankless_readFirst ⟨hdone, List.forall_mem_nil _⟩ hcs hread
    -- what is left of the text is partly stable, and partly where the next segment begins
    refine ih (blankless_append.mpr ⟨blankless_reverse.mpr fun c hc => ?_, hs.done⟩) fun c hc => ?_
    · exact hrest c (List.mem_of_mem_take hc)
    · exact hrest c (List.mem_of_mem_drop hc)

/-- The normal form of a text that is not empty is not empty. -/
theorem normalizeFrom_ne_nil {done : List Nat} (h : done ≠ [] ∨ cs ≠ [] ∧ fuel ≠ 0) :
    normalizeFrom fuel done marks cs ≠ [] := by
  fun_induction normalizeFrom fuel done marks cs with
  | case1 => simpa using h
  | case2 => simpa using h
  | case3 fuel done marks cs hne s marks' rest hread stable ih =>
    refine ih (.inl (List.append_ne_nil_of_right_ne_nil _ ?_))
    exact Segment.done_readFirst_ne_nil _ (fun hnil => hne hnil) hread

end NormalForm

open NormalForm

theorem eq_of_ofNat_eq {n : Nat} (h : Char.ofNat n = ' ') : n = 0x20 := by
  -- a number that is no character stands for the character zero
  by_cases hvalid : n.isValidChar
  · rw [Char.ofNat, dif_pos hvalid] at h
    exact congrArg Char.toNat h
  · rw [Char.ofNat, dif_neg hvalid] at h
    cases h

theorem Unbroken.blankless {s : String} (hs : Unbroken s) :
    Blankless (s.toList.map Char.toNat) := by
  refine List.forall_mem_map.mpr fun c hc heq => hs.notMem ?_
  rwa [show ' ' = c from Char.toNat_inj.mp heq.symm]

/-- The normal form of a text without blanks that is not empty is such a text again. -/
theorem unbroken_normalize {s : String} (hs : Unbroken s) : Unbroken (normalize s) := by
  unfold normalize
  dsimp only
  split
  · exact hs
  · next n _ =>
    have hcs := hs.blankless
    have hne : s.toList.map Char.toNat ≠ [] := by simpa using hs.ne_empty
    -- From here on only the code points of the text count.
    generalize s.toList.map Char.toNat = cs at hcs hne
    have hdone : Blankless (cs.take n).reverse :=
      blankless_reverse.mpr fun c hc => hcs c (List.mem_of_mem_take hc)
    have hrest : Blankless (cs.drop n) := fun c hc => hcs c (List.mem_of_mem_drop hc)
    refine ⟨fun hempty => ?_, fun hblank => ?_⟩
    · have hnil := congrArg String.toList hempty
      rw [String.toList_ofList, String.toList_empty, List.map_eq_nil_iff] at hnil
      refine normalizeFrom_ne_nil ?_ hnil
      -- Either something is taken over as it is, or something is left to be put together.
      by_cases htake : cs.take n = []
      · refine .inr ⟨fun hdrop => hne ?_, Nat.succ_ne_zero _⟩
        rw [← List.take_append_drop n cs, htake, hdrop]
        rfl
      · exact .inl (by simpa using htake)
    · rw [String.toList_ofList] at hblank
      obtain ⟨c, hc, hchar⟩ := List.mem_map.mp hblank
      refine blankless_normalizeFrom hdone hrest c hc ?_
      exact eq_of_ofNat_eq hchar

end CSharpAudit.Text
