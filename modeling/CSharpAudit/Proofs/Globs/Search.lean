import CSharpAudit.Proofs.Globs.Classes
import Mathlib.Tactic.Ring

/-!
# Searches for patterns

A search for a pattern without alternatives goes from one place to the next. First of all its pair
of stars moves through the pattern and the path, then its star, then the search itself. So it ends
within the steps that it is given, and a pattern describes a path if the search succeeds at all.

## Main definitions

* `Glob.Succeeds` — a search without alternatives that succeeds
* `Glob.Search.Within`, `Glob.Search.cost` — how many steps a search can make

## Main results

* `Glob.describes_iff_succeeds` — the steps that a search is given are enough
-/

namespace CSharpAudit.Glob

variable {p q rest t xs : List Char} {x : Char} {b : Bool} {s s' : Search} {strict : Bool}

/-! ### Moves -/

namespace Move

/-- What is left of the pattern behind a move that goes on in it. -/
def rest? : Move → Option (List Char)
  | read rest _ | star rest | deep rest => some rest
  | _ => none

end Move

/-- A move goes on with a shorter rest of the pattern. -/
theorem suffix_tail_of_move :
    ∀ rest ∈ (move b x p).rest?, rest <:+ p.tail ∧ p ≠ [] := by
  intro rest h
  generalize hm : move b x p = m at h
  revert hm
  -- a pattern goes on behind a pair of stars, a star, or what stands for one character
  fun_cases move b x p with
  | case3 body =>
    rintro rfl
    cases h
    exact ⟨(List.drop_suffix 1 body).trans (List.suffix_cons _ _), List.cons_ne_nil _ _⟩
  | case4 body =>
    rintro rfl
    cases h
    exact ⟨List.suffix_cons _ _, List.cons_ne_nil _ _⟩
  | case5 | case7 | case16 =>
    rintro rfl
    cases h
    exact ⟨List.suffix_refl _, List.cons_ne_nil _ _⟩
  | case10 body rest' hfit =>
    rintro rfl
    cases h
    exact ⟨Class.suffix_of_fits hfit, List.cons_ne_nil _ _⟩
  | case14 c body =>
    rintro rfl
    cases h
    exact ⟨List.suffix_cons _ _, List.cons_ne_nil _ _⟩
  | _ =>
    rintro rfl
    cases h

theorem ne_nil_of_move {m : Move} (h : move b x p = m) (hrest : rest ∈ m.rest?) : p ≠ [] :=
  (suffix_tail_of_move rest (h ▸ hrest)).2

theorem length_lt_of_move {m : Move} (h : move b x p = m) (hrest : rest ∈ m.rest?) :
    rest.length < p.length := by
  obtain ⟨hsuffix, hne⟩ := suffix_tail_of_move rest (h ▸ hrest)
  exact Nat.lt_of_le_of_lt hsuffix.length_le (by
    rw [List.length_tail]
    exact Nat.sub_one_lt (mt List.length_eq_zero_iff.mp hne))

/-- Without a brace in the pattern there is no choice. -/
theorem move_ne_choice (hp : '{' ∉ p) (ps : List (List Char)) : move b x p ≠ .choice ps := by
  fun_cases move b x p with
  | case12 => simp at hp
  | _ => simp

/-! ### Searches that succeed -/

/-- A search without alternatives that succeeds. -/
inductive Succeeds : Search → Prop
  | ended {s : Search} (hname : s.name = [])
      (hempty : emptyPatterns.contains (String.ofList s.pattern) = true) : Succeeds s
  | finished {s : Search} {x : Char} {xs : List Char} (hname : s.name = x :: xs)
      (hmove : move s.atStart x s.pattern = .finished) : Succeeds s
  | read {s : Search} {x : Char} {xs p : List Char} {b : Bool} (hname : s.name = x :: xs)
      (hmove : move s.atStart x s.pattern = .read p b) (h : Succeeds (s.behindRead p xs b)) :
      Succeeds s
  | star {s : Search} {x : Char} {xs p : List Char} (hname : s.name = x :: xs)
      (hmove : move s.atStart x s.pattern = .star p) (h : Succeeds (s.behindStar p)) : Succeeds s
  | deep {s : Search} {x : Char} {xs p : List Char} (hname : s.name = x :: xs)
      (hmove : move s.atStart x s.pattern = .deep p) (h : Succeeds (s.behindDeep p)) : Succeeds s
  | retreat {s s' : Search} {x : Char} {xs p : List Char} (hname : s.name = x :: xs)
      (hmove : move s.atStart x s.pattern = .stuck p) (hretreat : s.retreat? = some s')
      (h : Succeeds s') : Succeeds s

namespace Search

/-- A search that cannot go on at its last star. -/
def Spent (s : Search) : Prop := s.onStar? = none

/-- A star is spent when it stands before a slash or at the end. -/
theorem spent_iff : s.Spent ↔ ∀ p x xs, s.star = some (p, x :: xs) → x = '/' := by
  unfold Spent onStar?
  split
  · rename_i p x xs hstar
    simp [hstar]
  · rename_i hstar
    simp only [true_iff]
    exact fun p x xs h => absurd h (hstar p x xs)

/-- A star takes one more character, but no slash. -/
theorem onStar?_eq_some (h : s.onStar? = some s') : ∃ p x xs, s.star = some (p, x :: xs) ∧
    x ≠ '/' ∧ s' = { s with pattern := p, name := xs, atStart := false, star := some (p, xs) } := by
  unfold onStar? at h
  split at h
  · rename_i p x xs hstar
    split at h
    · cases h
    · rename_i hx
      exact ⟨p, x, xs, hstar, by simpa using hx, (Option.some.inj h).symm⟩
  · cases h

/-- A pair of stars takes one more segment of the path. -/
theorem onDeep?_eq_some (h : s.onDeep? = some s') : ∃ p n x xs, s.deep = some (p, n) ∧
    n.dropWhile (· != '/') = x :: xs ∧
    s' = { s with pattern := p, name := xs, atStart := true, deep := some (p, xs) } := by
  unfold onDeep? at h
  split at h
  · rename_i p n hdeep
    split at h
    · rename_i x xs hn
      exact ⟨p, n, x, xs, hdeep, hn, (Option.some.inj h).symm⟩
    · cases h
  · cases h

/-- The star is moved first. Once it is spent, the pair of stars is. -/
theorem retreat?_eq_some (h : s.retreat? = some s') :
    s.onStar? = some s' ∨ s.Spent ∧ s.onDeep? = some s' :=
  Option.or_eq_some_iff.mp h

/-- A property of all patterns with which a search may go on. -/
structure Each (P : List Char → Prop) (s : Search) : Prop where
  pattern : P s.pattern
  star : ∀ p ∈ s.star, P p.1
  deep : ∀ p ∈ s.deep, P p.1

namespace Each

variable {P : List Char → Prop}

theorem initial {p n : List Char} (h : P p) : Each P { pattern := p, name := n } :=
  ⟨h, by simp, by simp⟩

/-- What holds of all rests of a pattern holds of the one that a move goes on with. -/
theorem of_move (hP : ∀ p q, q <:+ p → P p → P q) (h : s.Each P)
    (hp : p ∈ (move s.atStart x s.pattern).rest?) : P p :=
  hP _ _ ((suffix_tail_of_move p hp).1.trans (List.tail_suffix _)) h.pattern

theorem behindRead (hP : ∀ p q, q <:+ p → P p → P q) (h : s.Each P)
    (hmove : move s.atStart x s.pattern = .read p b) : (s.behindRead p xs b).Each P where
  pattern := h.of_move hP (x := x) (by rw [hmove]; rfl)
  star := h.star
  deep := h.deep

theorem behindStar (hP : ∀ p q, q <:+ p → P p → P q) (h : s.Each P)
    (hmove : move s.atStart x s.pattern = .star p) : (s.behindStar p).Each P :=
  have hp : P p := h.of_move hP (x := x) (by rw [hmove]; rfl)
  ⟨hp, by rintro _ ⟨⟩; exact hp, h.deep⟩

theorem behindDeep (hP : ∀ p q, q <:+ p → P p → P q) (h : s.Each P)
    (hmove : move s.atStart x s.pattern = .deep p) : (s.behindDeep p).Each P :=
  have hp : P p := h.of_move hP (x := x) (by rw [hmove]; rfl)
  ⟨hp, nofun, by rintro _ ⟨⟩; exact hp⟩

/-- A retreat goes on with a rest of the pattern as well. -/
theorem retreat (h : s.Each P) (hretreat : s.retreat? = some s') : s'.Each P := by
  rcases retreat?_eq_some hretreat with hstar | ⟨-, hdeep⟩
  · obtain ⟨p, x, xs, hs, -, rfl⟩ := onStar?_eq_some hstar
    exact ⟨h.star _ hs, by simpa using h.star _ hs, h.deep⟩
  · obtain ⟨p, n, x, xs, hs, -, rfl⟩ := onDeep?_eq_some hdeep
    exact ⟨h.deep _ hs, h.star, by simpa using h.deep _ hs⟩

end Each

end Search

/-- Without alternatives, few patterns describe the empty path. -/
theorem contains_of_describesEmpty {fuel : Nat} (hp : '{' ∉ p)
    (h : describesEmpty strict (fuel + 1) p = some true) :
    emptyPatterns.contains (String.ofList p) = true := by
  unfold describesEmpty at h
  split at h
  · assumption
  split at h
  · exact absurd List.mem_cons_self hp
  · split at h <;> cases h

/-- A search for a pattern without alternatives that finds a match succeeds. -/
theorem succeeds_of_search {fuel : Nat} (hs : s.Each ('{' ∉ ·))
    (h : search strict fuel s = some true) : Succeeds s := by
  -- a search goes on only with ends of the patterns that it had, so none of them has alternatives
  have hsuffix (p q : List Char) (hq : q <:+ p) (hp : '{' ∉ p) : '{' ∉ q := fun h => hp (hq.mem h)
  induction fuel generalizing s with
  | zero => cases h
  | succ fuel ih =>
    rw [search] at h
    cases hname : s.name with
    | nil =>
      simp only [hname] at h
      exact .ended hname (contains_of_describesEmpty hs.pattern h)
    | cons x xs =>
      simp only [hname] at h
      cases hmove : move s.atStart x s.pattern with
      | finished => exact .finished hname hmove
      | malformed => simp [hmove] at h
      | read p b =>
        simp only [hmove] at h
        exact .read hname hmove (ih (hs.behindRead hsuffix hmove) h)
      | star p =>
        simp only [hmove] at h
        exact .star hname hmove (ih (hs.behindStar hsuffix hmove) h)
      | deep p =>
        simp only [hmove] at h
        exact .deep hname hmove (ih (hs.behindDeep hsuffix hmove) h)
      | choice ps => exact absurd hmove (move_ne_choice hs.pattern ps)
      | stuck p =>
        simp only [hmove] at h
        cases hretreat : s.retreat? with
        | none =>
          simp only [hretreat] at h
          split at h <;> cases h
        | some s' =>
          simp only [hretreat] at h
          exact .retreat hname hmove hretreat (ih (hs.retreat hretreat) h)

/-! ### How many steps are needed -/

namespace Search

variable {P N : Nat} {live : Option (List Char × List Char)}

/-- How long the pattern behind the next star can be. -/
def room (P : Nat) : Option (List Char × List Char) → Nat
  | none => P
  | some (p, _) => p.length

/-- A number that becomes smaller whenever a star moves. -/
def rank (P N : Nat) : Option (List Char × List Char) → Nat
  | none => P * (N + 1) + N
  | some (p, n) => p.length * (N + 1) + n.length

/-- What a live star has left in the pattern counts for more than all of the path. -/
theorem room_mul_le_rank (live : Option (List Char × List Char)) :
    room P live * (N + 1) ≤ rank P N live := by
  cases live <;> exact Nat.le_add_right _ _

/-- A star further on in the pattern has a smaller rank. -/
theorem rank_lt_of_room {p n : List Char} (hp : p.length < room P live) (hn : n.length ≤ N) :
    rank P N (some (p, n)) < rank P N live :=
  calc p.length * (N + 1) + n.length
      < (p.length + 1) * (N + 1) := by rw [Nat.succ_mul]; omega
    _ ≤ room P live * (N + 1) := Nat.mul_le_mul_right _ hp
    _ ≤ rank P N live := room_mul_le_rank live

theorem rank_lt (h : ∀ q ∈ live, q.1.length ≤ P ∧ q.2.length ≤ N) :
    rank P N live < (P + 1) * (N + 1) := by
  rw [Nat.succ_mul]
  cases live with
  | none => exact Nat.add_lt_add_left (Nat.lt_succ_self N) _
  | some q =>
    obtain ⟨hp, hn⟩ := h q rfl
    exact Nat.add_lt_add_of_le_of_lt (Nat.mul_le_mul_right _ hp) (Nat.lt_succ_of_le hn)

/-- A search among patterns of at most `P` characters and paths of at most `N`. The star `live` is
the last one, unless the search cannot go on at that. -/
structure Within (P N : Nat) (live : Option (List Char × List Char)) (s : Search) : Prop where
  name : s.name.length ≤ N
  last : live = s.star ∨ live = none ∧ s.Spent
  live_le : ∀ q ∈ live, q.1.length ≤ room P s.deep ∧ q.2.length ≤ N
  deep_le : ∀ q ∈ s.deep, q.1.length ≤ P ∧ q.2.length ≤ N
  pattern_live : s.pattern.length ≤ room P live
  pattern_deep : s.pattern.length ≤ room P s.deep

/-- A bound of the steps that a search makes: first of all the pair of stars moves, then the star,
then the search goes on in the pattern and the path. -/
def cost (P N : Nat) (live : Option (List Char × List Char)) (s : Search) : Nat :=
  (rank P N s.deep * ((P + 1) * (N + 1)) + rank P N live) * (P + N + 1) +
    (s.pattern.length + s.name.length)

/-- The order of the parts in `cost`. -/
theorem lex_lt {a a' b b' c c' B C : Nat} (hb : b' < B) (hc : c' < C)
    (h : a' < a ∨ a' = a ∧ (b' < b ∨ b' = b ∧ c' < c)) :
    (a' * B + b') * C + c' < (a * B + b) * C + c := by
  -- a digit that is smaller outweighs all that follow it
  have hlt {d d' : Nat} (h : d' < d) : d' * C + c' < d * C + c :=
    calc d' * C + c' < (d' + 1) * C := by rw [Nat.succ_mul]; omega
      _ ≤ d * C := Nat.mul_le_mul_right _ h
      _ ≤ d * C + c := Nat.le_add_right _ _
  rcases h with ha | ⟨rfl, hb' | ⟨rfl, hc'⟩⟩
  · refine hlt ?_
    calc a' * B + b' < (a' + 1) * B := by rw [Nat.succ_mul]; omega
      _ ≤ a * B := Nat.mul_le_mul_right _ ha
      _ ≤ a * B + b := Nat.le_add_right _ _
  · exact hlt (Nat.add_lt_add_left hb' _)
  · exact Nat.add_lt_add_left hc' _

namespace Within

theorem room_le (h : s.Within P N live) : room P s.deep ≤ P := by
  cases hdeep : s.deep with
  | none => exact Nat.le_refl P
  | some q => exact (h.deep_le q hdeep).1

/-- A search never holds more of the pattern than there was. -/
theorem pattern_le (h : s.Within P N live) : s.pattern.length ≤ P :=
  Nat.le_trans h.pattern_deep h.room_le

/-- A search gets cheaper if its pair of stars moves, or its star does, or it reads on. -/
theorem cost_lt {live' : Option (List Char × List Char)} (h' : s'.Within P N live')
    (hless : rank P N s'.deep < rank P N s.deep ∨ s'.deep = s.deep ∧
      (rank P N live' < rank P N live ∨ live' = live ∧
        s'.pattern.length + s'.name.length < s.pattern.length + s.name.length)) :
    cost P N live' s' < cost P N live s := by
  -- the places of the star and of the search are bounded, so none outweighs a move before it
  refine lex_lt (rank_lt fun q hq => ?_) ?_ ?_
  · exact ⟨Nat.le_trans (h'.live_le q hq).1 h'.room_le, (h'.live_le q hq).2⟩
  · have := h'.pattern_le
    have := h'.name
    omega
  · exact hless.imp_right fun ⟨hdeep, hless⟩ =>
      ⟨by rw [hdeep], hless.imp_right fun ⟨hlive, hless⟩ => ⟨by rw [hlive], hless⟩⟩

/-- A character that is read makes the search cheaper. -/
theorem read (h : s.Within P N live) (hname : s.name = x :: xs)
    (hp : p.length < s.pattern.length) : (s.behindRead p xs b).Within P N live ∧
      cost P N live (s.behindRead p xs b) < cost P N live s := by
  have hxs : xs.length + 1 = s.name.length := by simp [hname]
  have hw : (s.behindRead p xs b).Within P N live := {
    h with
    name := Nat.le_trans (by simpa [behindRead] using hxs ▸ Nat.le_succ _) h.name
    last := h.last.imp_right fun ⟨hnone, hspent⟩ => ⟨hnone, by rwa [spent_iff] at hspent ⊢⟩
    pattern_live := Nat.le_trans (Nat.le_of_lt hp) h.pattern_live
    pattern_deep := Nat.le_trans (Nat.le_of_lt hp) h.pattern_deep }
  refine ⟨hw, hw.cost_lt (.inr ⟨rfl, .inr ⟨rfl, ?_⟩⟩)⟩
  simp only [behindRead]
  omega

/-- A new star makes the search cheaper, since less of the pattern is left behind it. -/
theorem star (h : s.Within P N live) (hp : p.length < s.pattern.length) :
    (s.behindStar p).Within P N (some (p, s.name)) ∧
      cost P N (some (p, s.name)) (s.behindStar p) < cost P N live s := by
  have hw : (s.behindStar p).Within P N (some (p, s.name)) := {
    h with
    last := .inl rfl
    live_le := by
      rintro _ ⟨⟩
      exact ⟨Nat.le_trans (Nat.le_of_lt hp) h.pattern_deep, h.name⟩
    pattern_live := Nat.le_refl _
    pattern_deep := Nat.le_trans (Nat.le_of_lt hp) h.pattern_deep }
  -- less of the pattern stands behind the new star than behind the last, wherever that was
  exact ⟨hw, hw.cost_lt (.inr ⟨rfl, .inl
    (rank_lt_of_room (Nat.lt_of_lt_of_le hp h.pattern_live) h.name)⟩)⟩

/-- A new pair of stars makes the search cheaper, though it forgets the star. -/
theorem deep (h : s.Within P N live) (hp : p.length < s.pattern.length) :
    (s.behindDeep p).Within P N none ∧
      cost P N none (s.behindDeep p) < cost P N live s := by
  have hw : (s.behindDeep p).Within P N none := {
    name := h.name
    last := .inl rfl
    live_le := by simp
    deep_le := by
      rintro _ ⟨⟩
      exact ⟨Nat.le_trans (Nat.le_of_lt hp) h.pattern_le, h.name⟩
    pattern_live := Nat.le_trans (Nat.le_of_lt hp) h.pattern_le
    pattern_deep := Nat.le_refl _ }
  exact ⟨hw, hw.cost_lt (.inl (rank_lt_of_room (Nat.lt_of_lt_of_le hp h.pattern_deep) h.name))⟩

theorem retreat (h : s.Within P N live) (hretreat : s.retreat? = some s') :
    ∃ live', s'.Within P N live' ∧ cost P N live' s' < cost P N live s := by
  rcases retreat?_eq_some hretreat with hstar | ⟨hspent, hdeep⟩
  · obtain ⟨p, x, xs, hs, -, rfl⟩ := onStar?_eq_some hstar
    -- a star that moves is not spent, so it is the one that counts
    obtain rfl : live = s.star :=
      h.last.resolve_right fun ⟨_, hspent⟩ => by simp [Spent, hstar] at hspent
    obtain ⟨hp, hn⟩ := h.live_le _ hs
    have hxs : xs.length < N := hn
    have hw : Within P N (some (p, xs))
        { s with pattern := p, name := xs, atStart := false, star := some (p, xs) } := {
      name := Nat.le_of_lt hxs
      last := .inl rfl
      live_le := by
        rintro _ ⟨⟩
        exact ⟨hp, Nat.le_of_lt hxs⟩
      deep_le := h.deep_le
      pattern_live := Nat.le_refl _
      pattern_deep := hp }
    refine ⟨_, hw, hw.cost_lt (.inr ⟨rfl, .inl ?_⟩)⟩
    rw [hs]
    exact Nat.lt_succ_self _
  · obtain ⟨p, n, x, xs, hs, hn, rfl⟩ := onDeep?_eq_some hdeep
    obtain ⟨hp, hle⟩ := h.deep_le _ hs
    -- no star counts behind a pair of stars that has moved
    have hxs : xs.length < n.length :=
      Nat.lt_of_lt_of_le (by simp [hn]) (List.dropWhile_suffix (· != '/')).length_le
    have hw : Within P N none
        { s with pattern := p, name := xs, atStart := true, deep := some (p, xs) } := {
      name := Nat.le_trans (Nat.le_of_lt hxs) hle
      last := .inr ⟨rfl, by rwa [spent_iff] at hspent ⊢⟩
      live_le := by simp
      deep_le := by
        rintro _ ⟨⟩
        exact ⟨hp, Nat.le_trans (Nat.le_of_lt hxs) hle⟩
      pattern_live := hp
      pattern_deep := Nat.le_refl _ }
    refine ⟨_, hw, hw.cost_lt (.inl ?_)⟩
    rw [hs]
    exact Nat.add_lt_add_left hxs _

end Within

end Search

/-- A search that succeeds finds a match in as many steps as it costs. -/
theorem Succeeds.search (strict : Bool) {P N fuel : Nat} {live : Option (List Char × List Char)}
    (hs : Succeeds s) (hw : s.Within P N live) (hfuel : s.cost P N live < fuel) :
    search strict fuel s = some true := by
  -- along the steps that succeed: each of them lowers the cost, so that there is fuel for the next
  induction hs generalizing fuel live with
  | ended hname hempty =>
    obtain ⟨fuel, rfl⟩ := Nat.exists_eq_add_one_of_ne_zero (Nat.ne_zero_of_lt hfuel)
    simp only [Glob.search, hname, describesEmpty, if_pos hempty]
  | finished hname hmove =>
    obtain ⟨fuel, rfl⟩ := Nat.exists_eq_add_one_of_ne_zero (Nat.ne_zero_of_lt hfuel)
    simp only [Glob.search, hname, hmove]
  | read hname hmove _ ih =>
    obtain ⟨fuel, rfl⟩ := Nat.exists_eq_add_one_of_ne_zero (Nat.ne_zero_of_lt hfuel)
    obtain ⟨hw', hcost⟩ := hw.read hname (length_lt_of_move hmove rfl)
    simp only [Glob.search, hname, hmove]
    exact ih hw' (by omega)
  | star hname hmove _ ih =>
    obtain ⟨fuel, rfl⟩ := Nat.exists_eq_add_one_of_ne_zero (Nat.ne_zero_of_lt hfuel)
    obtain ⟨hw', hcost⟩ := hw.star (length_lt_of_move hmove rfl)
    simp only [Glob.search, hname, hmove]
    exact ih hw' (by omega)
  | deep hname hmove _ ih =>
    obtain ⟨fuel, rfl⟩ := Nat.exists_eq_add_one_of_ne_zero (Nat.ne_zero_of_lt hfuel)
    obtain ⟨hw', hcost⟩ := hw.deep (length_lt_of_move hmove rfl)
    simp only [Glob.search, hname, hmove]
    exact ih hw' (by omega)
  | retreat hname hmove hretreat _ ih =>
    obtain ⟨fuel, rfl⟩ := Nat.exists_eq_add_one_of_ne_zero (Nat.ne_zero_of_lt hfuel)
    obtain ⟨live', hw', hcost⟩ := hw.retreat hretreat
    simp only [Glob.search, hname, hmove, hretreat]
    exact ih hw' (by omega)

namespace Search

/-- The search for a pattern in a path, at its beginning. -/
def start (p n : List Char) : Search := { pattern := p, name := n }

theorem within_start (p n : List Char) : (start p n).Within p.length n.length none where
  name := Nat.le_refl _
  last := .inl rfl
  live_le := by simp
  deep_le := by simp [start]
  pattern_live := Nat.le_refl _
  pattern_deep := Nat.le_refl _

/-- A search starts with as many steps as it can make. -/
theorem cost_start_lt (p n : List Char) :
    (start p n).cost p.length n.length none < searchBound p.length n.length := by
  let C := (p.length + 1) * (n.length + 1)
  have hrank : rank p.length n.length none < C := rank_lt (by simp)
  calc (start p n).cost p.length n.length none
      < (C * C + 0) * (p.length + n.length + 1) + 0 :=
        -- as if the pair of stars had moved to its last place
        lex_lt hrank (Nat.lt_succ_self _) (.inl hrank)
    _ = C * C * (p.length + n.length + 1) := by ring
    _ ≤ (p.length + 1) * (C * C * (p.length + n.length + 1)) :=
        Nat.le_mul_of_pos_left _ (Nat.succ_pos _)
    _ = searchBound p.length n.length := by
        simp only [searchBound, Nat.pow_eq, C]
        ring

end Search

/-- The steps that a search is given are enough. -/
theorem describes_iff_succeeds {pattern name : String} (hp : '{' ∉ pattern.toList) :
    describes strict pattern name = true ↔
      Succeeds (.start pattern.toList name.toList) := by
  constructor
  · intro h
    exact succeeds_of_search (.initial hp)
      ((Option.getD_eq_iff.mp h).resolve_right fun ⟨_, hfalse⟩ => nomatch hfalse)
  · intro h
    have hsearch := h.search strict (Search.within_start _ _) (Search.cost_start_lt _ _)
    rw [Search.start] at hsearch
    simp only [describes, hsearch, Option.getD_some]

end CSharpAudit.Glob
