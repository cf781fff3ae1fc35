import CSharpAudit.Proofs.Globs.Search

/-!
# Two stars in patterns

Two stars that fill a part stand for any number of parts. If they follow a pattern that describes a
path, the pattern describes all below that path. If they precede a pattern, the pattern describes
the end of the path, from the beginning of some part.

## Main definitions

* `Glob.Search.followedBy` — a search for a longer pattern in a longer path
* `Glob.Plain` — a pattern without alternatives that does not end with a slash

## Main results

* `Glob.describes_below` — two stars behind a pattern
* `Glob.exists_describes_of_deep` — two stars before a pattern
-/

namespace CSharpAudit.Glob

variable {p q t xs : List Char} {x : Char} {b : Bool} {s s' : Search} {strict : Bool}

/-! ### Longer patterns -/

/-- What a longer pattern does. -/
def Move.followedBy (t : List Char) : Move → Move
  | read rest b => read (rest ++ t) b
  | star rest => star (rest ++ t)
  | deep rest => deep (rest ++ t)
  | stuck rest => stuck (rest ++ t)
  | choice ps => choice (ps.map (· ++ t))
  | finished => finished
  | malformed => malformed

theorem eq_of_move_finished (h : move b x p = .finished) : p = ['*', '*'] ∧ b = true := by
  revert h
  fun_cases move b x p with
  | case2 body h =>
    obtain ⟨hb, hbody⟩ := Bool.and_eq_true_iff.mp h
    exact fun _ => ⟨by rw [List.isEmpty_iff.mp hbody], hb⟩
  | _ =>
    intro h
    cases h

theorem move_literal {c : Char} (hc : c ∉ ['*', '?', '[', '{', '\\']) :
    move b x (c :: p) = if c == x then .read p (c == '/') else .stuck (c :: p) := by
  simp only [List.mem_cons, List.not_mem_nil, or_false, not_or] at hc
  rw [move] <;> simp [hc]

/-- A pattern that fits or does not fit at a character does so if another part follows. -/
theorem move_append (hp : '{' ∉ p) (hne : p ≠ []) (hmalformed : move b x p ≠ .malformed)
    (hfinished : move b x p ≠ .finished) (t : List Char) :
    move b x (p ++ '/' :: t) = (move b x p).followedBy ('/' :: t) := by
  -- only behind stars does a move look at what follows, and a slash tells it no more than the end
  fun_cases move b x p with
  | case1 => exact absurd rfl hne
  | case2 body h => simp [move, h] at hfinished
  | case3 body hbody h =>
    cases body with
    | nil => simp at h
    | cons c rest => simp_all [move, Move.followedBy]
  | case4 body hbody h =>
    cases b with
    | false => simp [move, Move.followedBy]
    | true =>
      cases body with
      | nil => simp at hbody
      | cons c rest =>
        simp only [Bool.true_and, List.head?_cons] at h
        simp [move, Move.followedBy, h]
  | case5 body h =>
    rw [List.cons_append, move]
    · rfl
    · cases body with
      | nil => simp
      | cons c rest =>
        intro rest' heq
        exact h rest (by rw [(List.cons.inj heq).1])
  | case6 body h | case7 body h => simp [move, h, Move.followedBy]
  | case8 body h => simp [move, h] at hmalformed
  | case9 body rest h | case10 body rest h =>
    have hclosed : Class.fit x body ≠ .unclosed := by simp [h]
    rw [List.cons_append, move, Class.fit_append _ hclosed, h]
    rfl
  | case11 | case12 => simp at hp
  | case13 => simp [move] at hmalformed
  | case14 c body h | case15 c body h => simp [move, h, Move.followedBy]
  | case16 c body _ hstar hmark hclass hbrace hescape hescape' h
  | case17 c body _ hstar hmark hclass hbrace hescape hescape' h =>
    have hslash : c ≠ '\\' := fun hc => by
      cases body with
      | nil => exact hescape hc rfl
      | cons c' rest => exact hescape' c' rest hc rfl
    rw [List.cons_append, move_literal (by simpa using ⟨hstar, hmark, hclass, hbrace, hslash⟩)]
    simp [h, Move.followedBy]

namespace Search

/-- A search for a longer pattern in a longer path. -/
def followedBy (t r : List Char) (s : Search) : Search where
  pattern := s.pattern ++ t
  name := s.name ++ r
  atStart := s.atStart
  star := s.star.map fun (p, n) => (p ++ t, n ++ r)
  deep := s.deep.map fun (p, n) => (p ++ t, n ++ r)

theorem name_followedBy (t r : List Char) (h : s.name = x :: xs) :
    (s.followedBy t r).name = x :: (xs ++ r) := by
  rw [followedBy, h]
  rfl

theorem move_followedBy {m : Move} (t r : List Char) (hp : '{' ∉ s.pattern) (hne : s.pattern ≠ [])
    (hmove : move s.atStart x s.pattern = m) (hmalformed : m ≠ .malformed)
    (hfinished : m ≠ .finished) :
    move (s.followedBy ('/' :: t) r).atStart x (s.followedBy ('/' :: t) r).pattern =
      m.followedBy ('/' :: t) := by
  subst hmove
  exact move_append hp hne hmalformed hfinished t

theorem onStar?_followedBy (t r : List Char) :
    (s.followedBy t ('/' :: r)).onStar? = s.onStar?.map (·.followedBy t ('/' :: r)) := by
  unfold onStar?
  cases hstar : s.star with
  | none => simp [followedBy, hstar]
  | some q =>
    obtain ⟨p, n⟩ := q
    cases n with
    | nil => simp [followedBy, hstar]
    | cons x xs =>
      by_cases hx : x = '/'
      · simp [followedBy, hstar, hx]
      · simp [followedBy, hstar, hx]

theorem onDeep?_followedBy (t r : List Char) (h : s.onDeep? = some s') :
    (s.followedBy t r).onDeep? = some (s'.followedBy t r) := by
  obtain ⟨p, n, x, xs, hs, hn, rfl⟩ := onDeep?_eq_some h
  have hn' : (n ++ r).dropWhile (· != '/') = x :: (xs ++ r) := by
    rw [List.dropWhile_append, hn]
    rfl
  simp [onDeep?, followedBy, hs, hn']

theorem retreat?_followedBy (t r : List Char) (h : s.retreat? = some s') :
    (s.followedBy t ('/' :: r)).retreat? = some (s'.followedBy t ('/' :: r)) := by
  rw [retreat?, onStar?_followedBy]
  rcases retreat?_eq_some h with hstar | ⟨hspent, hdeep⟩
  · simp [hstar]
  · rw [hspent, Option.map_none, Option.none_or]
    exact onDeep?_followedBy t _ hdeep

end Search

/-! ### Two stars behind a pattern -/

/-- Two stars describe everything. -/
theorem succeeds_all (hp : s.pattern = ['*', '*']) (hb : s.atStart = true) : Succeeds s := by
  cases hname : s.name with
  | nil => exact .ended hname (by rw [hp]; decide)
  | cons x xs => exact .finished hname (by simp [move, hp, hb])

/-- A slash and two stars describe what begins with a slash. -/
theorem succeeds_slash (hp : s.pattern = ['/', '*', '*']) (hn : s.name = '/' :: xs) : Succeeds s :=
  .read hn (by rw [hp]; rfl) (succeeds_all rfl rfl)

/-- Two stars, a slash and two stars describe what begins with a slash or fills parts. -/
theorem succeeds_deep_slash (hp : s.pattern = ['*', '*', '/', '*', '*']) (hn : s.name = x :: xs)
    (hstart : s.atStart = true ∨ x = '/') : Succeeds s := by
  cases hb : s.atStart with
  | true => exact .deep hn (by rw [hp, hb]; rfl) (succeeds_all rfl hb)
  | false =>
    obtain rfl : x = '/' := hstart.resolve_left (by simp [hb])
    exact .star hn (by rw [hp, hb]; rfl) (succeeds_slash rfl hn)

theorem mem_of_contains (h : emptyPatterns.contains (String.ofList p) = true) :
    p ∈ [[], ['*'], ['*', '*'], ['/', '*', '*'], ['*', '*', '/'], ['/', '*', '*', '/']] :=
  List.mem_map.mpr ⟨_, List.contains_iff_mem.mp h, String.toList_ofList⟩

/-- A pattern without alternatives that does not end with a slash. -/
def Plain (p : List Char) : Prop := '{' ∉ p ∧ p.getLast? ≠ some '/'

theorem Plain.suffix (p q : List Char) (hq : q <:+ p) (hp : Plain p) : Plain q := by
  refine ⟨fun h => hp.1 (hq.mem h), fun hlast => hp.2 ?_⟩
  obtain ⟨l, rfl⟩ := hq
  rw [List.getLast?_append, hlast, Option.some_or]

/-- If a pattern describes a path then with a slash and two stars behind it, it describes all below
that path. -/
theorem Succeeds.followedBy (hs : Succeeds s) (hplain : s.Each Plain) {r : List Char}
    (hr : r ≠ []) : Succeeds (s.followedBy ['/', '*', '*'] ('/' :: r)) := by
  -- along the search for the shorter pattern, whose steps are those of the longer one until it ends
  induction hs with
  | @ended s hname hempty =>
    have hn : (s.followedBy ['/', '*', '*'] ('/' :: r)).name = '/' :: r := by
      rw [Search.followedBy, hname]
      rfl
    have hmem := mem_of_contains hempty
    simp only [List.mem_cons, List.not_mem_nil, or_false] at hmem
    have hfollowed {p : List Char} (hp : s.pattern = p) :
        (s.followedBy ['/', '*', '*'] ('/' :: r)).pattern = p ++ ['/', '*', '*'] := hp ▸ rfl
    -- what is left of the pattern describes nothing, so that what follows it is next
    rcases hmem with hp | hp | hp | hp | hp | hp
    · exact succeeds_slash (hfollowed hp) hn
    · exact .star hn (by rw [hfollowed hp]; rfl) (succeeds_slash rfl hn)
    · exact succeeds_deep_slash (hfollowed hp) hn (.inr rfl)
    · obtain ⟨y, ys, rfl⟩ := List.exists_cons_of_ne_nil hr
      exact .read hn (by rw [hfollowed hp]; rfl) (succeeds_deep_slash rfl rfl (.inl rfl))
    · exact absurd (by rw [hp]; rfl) hplain.pattern.2
    · exact absurd (by rw [hp]; rfl) hplain.pattern.2
  | @finished s x xs hname hmove =>
    obtain ⟨hp, hb⟩ := eq_of_move_finished hmove
    exact succeeds_deep_slash (by rw [Search.followedBy, hp]; rfl)
      (Search.name_followedBy _ _ hname) (.inl hb)
  | @read s x xs p b hname hmove _ ih =>
    have hne := ne_nil_of_move hmove rfl
    exact .read (Search.name_followedBy _ _ hname)
      (Search.move_followedBy _ _ hplain.pattern.1 hne hmove nofun nofun)
      (ih (hplain.behindRead Plain.suffix hmove))
  | @star s x xs p hname hmove _ ih =>
    have hne := ne_nil_of_move hmove rfl
    exact .star (Search.name_followedBy _ _ hname)
      (Search.move_followedBy _ _ hplain.pattern.1 hne hmove nofun nofun)
      (ih (hplain.behindStar Plain.suffix hmove))
  | @deep s x xs p hname hmove _ ih =>
    have hne := ne_nil_of_move hmove rfl
    exact .deep (Search.name_followedBy _ _ hname)
      (Search.move_followedBy _ _ hplain.pattern.1 hne hmove nofun nofun)
      (ih (hplain.behindDeep Plain.suffix hmove))
  | @retreat s s' x xs p hname hmove hretreat _ ih =>
    have hgo := ih (hplain.retreat hretreat)
    have hretreat' := Search.retreat?_followedBy ['/', '*', '*'] r hretreat
    have hname' := Search.name_followedBy ['/', '*', '*'] ('/' :: r) hname
    by_cases hp : s.pattern = []
    · -- the pattern ended before the path, where only a slash may follow
      have hp' : (s.followedBy ['/', '*', '*'] ('/' :: r)).pattern = ['/', '*', '*'] := by
        rw [Search.followedBy, hp]
        rfl
      by_cases hx : x = '/'
      · exact succeeds_slash hp' (hx ▸ hname')
      · have hmove' : move (s.followedBy ['/', '*', '*'] ('/' :: r)).atStart x
            (s.followedBy ['/', '*', '*'] ('/' :: r)).pattern = .stuck ['/', '*', '*'] := by
          rw [hp', move_literal (by decide), if_neg (by simpa using Ne.symm hx)]
        exact .retreat hname' hmove' hretreat' hgo
    · exact .retreat hname' (Search.move_followedBy _ _ hplain.pattern.1 hp hmove nofun nofun)
        hretreat' hgo

/-- A pattern that describes a path describes all below that path with a slash and two stars behind
it. -/
theorem describes_below {strict' : Bool} {dir path rest : String} (hdir : Plain dir.toList)
    (hrest : rest ≠ "") (h : describes strict dir path = true) :
    describes strict' (dir ++ "/**") (path ++ "/" ++ rest) = true := by
  have hbrace : '{' ∉ (dir ++ "/**").toList := by simpa [String.toList_append] using hdir.1
  rw [describes_iff_succeeds hdir.1] at h
  rw [describes_iff_succeeds hbrace, String.toList_append, String.toList_append,
    String.toList_append, List.append_assoc]
  exact h.followedBy (.initial hdir) (r := rest.toList) (by simpa using hrest)

/-! ### Two stars before a pattern -/

/-- A star at which a search cannot go on does not matter. -/
theorem Succeeds.without_star (hs : Succeeds s) (hspent : s.Spent) :
    Succeeds { s with star := none } := by
  induction hs with
  | ended hname hempty => exact .ended hname hempty
  | finished hname hmove => exact .finished hname hmove
  | read hname hmove _ ih =>
    exact .read hname hmove (ih (by rwa [Search.spent_iff] at hspent ⊢))
  -- behind a new star or a pair of stars the last star is forgotten in any case
  | star hname hmove h => exact .star hname hmove h
  | deep hname hmove h => exact .deep hname hmove h
  | retreat hname hmove hretreat _ ih =>
    rcases Search.retreat?_eq_some hretreat with hstar | ⟨-, hdeep⟩
    · simp [Search.Spent, hstar] at hspent
    · obtain ⟨p, n, x, xs, hs, hn, rfl⟩ := Search.onDeep?_eq_some hdeep
      refine .retreat hname hmove ?_ (ih (by rwa [Search.spent_iff] at hspent ⊢))
      simp [Search.retreat?, Search.onStar?, Search.onDeep?, hs, hn]

/-- A search that succeeds does so without moving the pair of stars, or it succeeds at the beginning
of a later part. -/
theorem Succeeds.exists_of_deep (hs : Succeeds s) {n : List Char} (hdeep : s.deep = some (p, n)) :
    Succeeds { s with deep := none } ∨
      ∃ l m, n = l ++ '/' :: m ∧ Succeeds (.start p m) := by
  induction hs generalizing n with
  | ended hname hempty => exact .inl (.ended hname hempty)
  | finished hname hmove => exact .inl (.finished hname hmove)
  | read hname hmove _ ih => exact (ih hdeep).imp_left (.read hname hmove ·)
  | star hname hmove _ ih => exact (ih hdeep).imp_left (.star hname hmove ·)
  | deep hname hmove h =>
    -- another pair of stars takes the place of this one
    exact .inl (.deep hname hmove h)
  | @retreat s s' x xs q hname hmove hretreat _ ih =>
    rcases Search.retreat?_eq_some hretreat with hstar | ⟨hspent, hon⟩
    · obtain ⟨q, y, ys, hs, hy, rfl⟩ := Search.onStar?_eq_some hstar
      refine (ih hdeep).imp_left (.retreat hname hmove ?_ ·)
      simp [Search.retreat?, Search.onStar?, hs, hy]
    · obtain ⟨q, n', y, ys, hs, hn, rfl⟩ := Search.onDeep?_eq_some hon
      obtain ⟨rfl, rfl⟩ := Prod.mk.inj (Option.some.inj (hdeep.symm.trans hs))
      have hcut : n = n.takeWhile (· != '/') ++ '/' :: ys := by
        have hy := List.head?_dropWhile_not (· != '/') n
        simp only [hn, List.head?_cons, bne_eq_false_iff_eq] at hy
        rw [hy] at hn
        rw [← hn, List.takeWhile_append_dropWhile]
      -- the pair of stars has moved to a later part, where it stays or moves on
      right
      rcases ih rfl with hnow | ⟨l, m, rfl, hlater⟩
      · exact ⟨_, ys, hcut, hnow.without_star (by rwa [Search.spent_iff] at hspent ⊢)⟩
      · exact ⟨n.takeWhile (· != '/') ++ '/' :: l, m, by simpa using hcut, hlater⟩

/-- Two stars and a slash before a pattern let it describe what begins at a later part. -/
theorem exists_of_start_deep {n : List Char} (hs : Succeeds (.start ('*' :: '*' :: '/' :: p) n)) :
    Succeeds (.start p n) ∨ ∃ l m, n = l ++ '/' :: m ∧ Succeeds (.start p m) := by
  cases hs with
  | ended hname hempty =>
    obtain rfl : n = [] := hname
    obtain rfl : p = [] := by simpa [Search.start] using mem_of_contains hempty
    exact .inl (.ended rfl (by decide))
  | deep hname hmove h =>
    cases hmove
    exact h.exists_of_deep rfl
  | finished hname hmove => cases hmove
  | read hname hmove h => cases hmove
  | star hname hmove h => cases hmove
  | retreat hname hmove h => cases hmove

theorem exists_describes_of_deep (strict' : Bool) {dir path : String} (hdir : '{' ∉ dir.toList)
    (h : describes strict ("**/" ++ dir) path = true) : describes strict' dir path = true ∨
      ∃ before rest, path = before ++ "/" ++ rest ∧ describes strict' dir rest = true := by
  have hbrace : '{' ∉ ("**/" ++ dir).toList := by simpa [String.toList_append] using hdir
  rw [describes_iff_succeeds hbrace, String.toList_append] at h
  rcases exists_of_start_deep h with hnow | ⟨l, m, hpath, hlater⟩
  · exact .inl ((describes_iff_succeeds hdir).mpr hnow)
  · refine .inr ⟨String.ofList l, String.ofList m, ?_, ?_⟩
    · rw [← String.toList_inj, hpath]
      simp [String.toList_append]
    · rw [describes_iff_succeeds hdir, String.toList_ofList]
      exact hlater

end CSharpAudit.Glob
