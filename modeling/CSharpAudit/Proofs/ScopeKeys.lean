import CSharpAudit.Scope.Basic
import Mathlib.Data.List.Induction
import Mathlib.Data.List.Nodup
import Mathlib.Data.List.Perm.Subperm
import Mathlib.Data.Nat.Find

/-!
# Keys of scopes

The scope of a declaration gets the full name of the declaration as its key, or that name with a
number behind it if the name is taken. The search for a number ends, since a file has only so many
scopes, and it ends at the first free key. So a declaration never gets the scope of another one.

Where no name looks like another one with a number behind it, the number of a key tells how many
declarations of that name there are up to that one.

## Main definitions

* `numberedKey` — a name with a number behind it, which the first key of a name goes without
* `LocalScopes.FirstFree` — the number of the first key of a name that no scope has
* `numberedKeys` — the keys of some names by how often each one was there before
* `Unsuffixed` — no name is another one with a number behind it

## Main results

* `LocalScopes.exists_firstFree` — the search for a key ends at the first free one
* `LocalScopes.addMember_eq` — a declaration with parameters or bodies gets a new scope
* `LocalScopes.FirstFree.eq_count` — the number of the first free key
-/

namespace CSharpAudit

/-! ### Names with numbers -/

/-- A key of a name: the name itself, or the name with a number behind it from 2 on. -/
def numberedKey (name : String) (k : Nat) : String :=
  if k = 1 then name else name ++ "#" ++ toString k

section Numbers

variable {a b : String} {k m : Nat}

/-- The first key of a name is the name. -/
theorem numberedKey_one : numberedKey a 1 = a := if_pos rfl

theorem numberedKey_of_ne_one (h : k ≠ 1) : numberedKey a k = a ++ "#" ++ toString k := if_neg h

/-- A number is written in decimal digits. -/
theorem toList_toString (n : Nat) : (toString n).toList = Nat.toDigits 10 n := by
  rw [Nat.toString_eq_ofList_toDigits, String.toList_ofList]

/-- No digit is a number sign. -/
theorem not_mem_toString (n : Nat) : '#' ∉ (toString n).toList := by
  rw [toList_toString]
  intro h
  exact absurd (Nat.isDigit_of_mem_toDigits (by decide) (by decide) h) (by decide)

/-- A key can be taken apart at its last number sign. -/
theorem append_toString_inj (h : a ++ "#" ++ toString k = b ++ "#" ++ toString m) :
    a = b ∧ k = m := by
  have hchars : a.toList ++ '#' :: (toString k).toList =
      b.toList ++ '#' :: (toString m).toList := by
    simpa using congrArg String.toList h
  obtain ⟨hname, hnumber⟩ := Text.append_cons_inj (not_mem_toString k) (not_mem_toString m) hchars
  rw [toList_toString, toList_toString] at hnumber
  refine ⟨String.toList_inj.mp hname, ?_⟩
  rw [← Nat.ofDigitChars_ten_toDigits (n := k), hnumber, Nat.ofDigitChars_ten_toDigits]

theorem append_toString_ne : a ++ "#" ++ toString k ≠ a := by
  intro h
  have hlength := congrArg String.length h
  rw [String.length_append, String.length_append] at hlength
  have hmark : "#".length = 1 := rfl
  omega

/-- Different numbers give different keys. -/
theorem numberedKey_injective (a : String) : Function.Injective (numberedKey a) := by
  intro k m h
  by_cases hk : k = 1 <;> by_cases hm : m = 1
  · rw [hk, hm]
  · rw [hk, numberedKey_one, numberedKey_of_ne_one hm] at h
    exact absurd h.symm append_toString_ne
  · rw [hm, numberedKey_one, numberedKey_of_ne_one hk] at h
    exact absurd h append_toString_ne
  · rw [numberedKey_of_ne_one hk, numberedKey_of_ne_one hm] at h
    exact (append_toString_inj h).2

end Numbers

/-! ### The search for a key -/

namespace LocalScopes

variable {l : LocalScopes} {name : String}

/-- A key is taken if something is kept under it. -/
theorem isSome_get?_iff {key : String} : (l.get? key).isSome = true ↔ key ∈ l.keys := by
  rw [get?, List.find?_isSome, keys, List.mem_map]
  exact exists_congr fun s => and_congr_right fun _ => beq_iff_eq

/-- The number of the first key of a name that no scope has. -/
structure FirstFree (l : LocalScopes) (name : String) (k : Nat) : Prop where
  pos : 1 ≤ k
  free : numberedKey name k ∉ l.keys
  taken : ∀ m, 1 ≤ m → m < k → numberedKey name m ∈ l.keys

/-- Not all of the first keys of a name are taken, since there are more of them than scopes. -/
theorem exists_free (l : LocalScopes) (name : String) :
    ∃ k, 1 ≤ k ∧ k ≤ l.scopes.length + 1 ∧ numberedKey name k ∉ l.keys := by
  by_contra hall
  push Not at hall
  have hnodup : ((List.range' 1 (l.scopes.length + 1)).map (numberedKey name)).Nodup :=
    (List.nodup_range' 1).map (numberedKey_injective name)
  have hsubset : (List.range' 1 (l.scopes.length + 1)).map (numberedKey name) ⊆ l.keys := by
    intro key hkey
    obtain ⟨k, hk, rfl⟩ := List.mem_map.mp hkey
    rw [List.mem_range'_1] at hk
    exact hall k hk.1 (by omega)
  have hlength := (List.subperm_of_subset hnodup hsubset).length_le
  rw [List.length_map, List.length_range', keys, List.length_map] at hlength
  omega

/-- A search that starts at a number and may try enough keys ends at the first free one. -/
theorem FirstFree.freeSuffix {k i tries : Nat} (h : l.FirstFree name k) (hi : 2 ≤ i) (hik : i ≤ k)
    (htries : k ≤ i + tries) : l.freeSuffix name i tries = numberedKey name k := by
  have hkey : numberedKey name i = name ++ "#" ++ toString i := numberedKey_of_ne_one (by omega)
  induction tries generalizing i with
  | zero =>
    obtain rfl : i = k := by omega
    rw [LocalScopes.freeSuffix, hkey]
  | succ tries ih =>
    rw [LocalScopes.freeSuffix, ← hkey]
    by_cases heq : i = k
    · have hfree : ¬(l.get? (numberedKey name i)).isSome = true := by
        rw [isSome_get?_iff, heq]
        exact h.free
      rw [if_neg hfree, heq]
    · have htaken : (l.get? (numberedKey name i)).isSome = true :=
        isSome_get?_iff.mpr (h.taken i (by omega) (by omega))
      rw [if_pos htaken]
      exact ih (by omega) (by omega) (by omega) (numberedKey_of_ne_one (by omega))

/-- The search for a key ends, and it ends at the first free one. -/
theorem exists_firstFree (l : LocalScopes) (name : String) :
    ∃ k, l.FirstFree name k ∧ l.freeKey name = numberedKey name k := by
  classical
  have hfree := exists_free l name
  obtain ⟨hpos, hbound, hnot⟩ := Nat.find_spec hfree
  -- What is free first from one on is what the search from two on finds, unless it is one.
  have h : l.FirstFree name (Nat.find hfree) := by
    refine ⟨hpos, hnot, fun m hm hlt => ?_⟩
    by_contra hmem
    exact Nat.find_min hfree hlt ⟨hm, by omega, hmem⟩
  refine ⟨_, h, ?_⟩
  rw [freeKey]
  by_cases htaken : (l.get? name).isSome = true
  · rw [if_pos htaken]
    rw [isSome_get?_iff, ← numberedKey_one (a := name)] at htaken
    have hne : Nat.find hfree ≠ 1 := by
      intro heq
      exact h.free (heq.symm ▸ htaken)
    exact h.freeSuffix (Nat.le_refl 2) (by omega) (by omega)
  · rw [if_neg htaken]
    rw [isSome_get?_iff, ← numberedKey_one (a := name)] at htaken
    have hone : Nat.find hfree = 1 := by
      by_contra hne
      exact htaken (h.taken 1 (Nat.le_refl 1) (by omega))
    rw [hone, numberedKey_one]

/-- The key that is found is free. -/
theorem freeKey_not_mem (l : LocalScopes) (name : String) : l.freeKey name ∉ l.keys := by
  obtain ⟨k, hk, heq⟩ := l.exists_firstFree name
  rw [heq]
  exact hk.free

/-- A declaration with parameters or bodies gets a scope that nothing else was put into. -/
theorem addMember_eq (l : LocalScopes) (d : Declared) : l.addMember d =
    if d.node.bodies.isEmpty && d.node.params.isEmpty then l
    else ⟨l.scopes ++ [({ key := l.freeKey (d.path.declName d.node) } : Scope).collectDecl d]⟩ := by
  have hfree : ¬l.scopes.any (·.key == l.freeKey (d.path.declName d.node)) = true := by
    intro h
    obtain ⟨s, hs, hkey⟩ := List.any_eq_true.mp h
    exact l.freeKey_not_mem _ (List.mem_map.mpr ⟨s, hs, eq_of_beq hkey⟩)
  rw [addMember, modify, if_neg hfree]

end LocalScopes

/-! ### Keys counted -/

/-- The keys of some names: each name with the number of times it was there up to that place. -/
def numberedKeys (names : List String) : List String :=
  names.zipIdx.map fun p => numberedKey p.1 ((names.take p.2).count p.1 + 1)

/-- No name is a name of the list with a number behind it. -/
def Unsuffixed (names : List String) : Prop :=
  ∀ a ∈ names, ∀ b ∈ names, ∀ n : Nat, a ≠ b ++ "#" ++ toString n

section Counted

variable {names : List String} {name : String}

theorem Unsuffixed.front {names' : List String} (h : Unsuffixed (names ++ names')) :
    Unsuffixed names := by
  intro a ha b hb
  exact h a (List.mem_append_left _ ha) b (List.mem_append_left _ hb)

/-- One more name is numbered by how often it came before. -/
theorem numberedKeys_concat : numberedKeys (names ++ [name]) =
    numberedKeys names ++ [numberedKey name (names.count name + 1)] := by
  have hbefore : ∀ p ∈ names.zipIdx, numberedKey p.1 (((names ++ [name]).take p.2).count p.1 + 1) =
      numberedKey p.1 ((names.take p.2).count p.1 + 1) := by
    intro p hp
    have hlt : p.2 < names.length := (List.mem_zipIdx' hp).1
    rw [List.take_append_of_le_length (Nat.le_of_lt hlt)]
  rw [numberedKeys, List.zipIdx_append, List.map_append, List.map_congr_left hbefore]
  simp [numberedKeys]

/-- Names that do not differ by a number alone have different keys. -/
theorem numberedKey_eq_iff {a b : String} {k m : Nat} (hab : ∀ n : Nat, a ≠ b ++ "#" ++ toString n)
    (hba : ∀ n : Nat, b ≠ a ++ "#" ++ toString n) :
    numberedKey a k = numberedKey b m ↔ a = b ∧ k = m := by
  constructor
  · intro h
    have hname : a = b := by
      by_cases hk : k = 1 <;> by_cases hm : m = 1
      · rwa [hk, hm, numberedKey_one, numberedKey_one] at h
      · rw [hk, numberedKey_one, numberedKey_of_ne_one hm] at h
        exact absurd h (hab m)
      · rw [hm, numberedKey_one, numberedKey_of_ne_one hk] at h
        exact absurd h.symm (hba k)
      · rw [numberedKey_of_ne_one hk, numberedKey_of_ne_one hm] at h
        exact (append_toString_inj h).1
    subst hname
    exact ⟨rfl, numberedKey_injective a h⟩
  · rintro ⟨rfl, rfl⟩
    rfl

/-- Of the keys of a name, those up to how often it is listed are taken. -/
theorem numberedKey_mem_numberedKeys_iff {k : Nat} (h : Unsuffixed (names ++ [name]))
    (hk : 1 ≤ k) : numberedKey name k ∈ numberedKeys names ↔ k ≤ names.count name := by
  have hname : ∀ b ∈ names, (∀ n : Nat, name ≠ b ++ "#" ++ toString n) ∧
      ∀ n : Nat, b ≠ name ++ "#" ++ toString n := by
    intro b hb
    have hlast : name ∈ names ++ [name] := by simp
    exact ⟨h name hlast b (List.mem_append_left _ hb), h b (List.mem_append_left _ hb) name hlast⟩
  clear h
  -- from the back, since the number of a key depends on the names in front
  induction names using List.reverseRecOn with
  | nil => simp [numberedKeys]; omega
  | append_singleton names b ih =>
    obtain ⟨hab, hba⟩ := hname b (by simp)
    have hkey := numberedKey_eq_iff (k := k) (m := names.count b + 1) hab hba
    have hfront : numberedKey name k ∈ numberedKeys names ↔ k ≤ names.count name :=
      ih fun c hc => hname c (List.mem_append_left _ hc)
    rw [numberedKeys_concat, List.mem_append, hfront, List.mem_singleton, hkey, List.count_append,
      List.count_singleton]
    by_cases hb : name = b
    · subst hb
      simp only [true_and, beq_self_eq_true, if_true]
      omega
    · rw [if_neg (by simpa using Ne.symm hb)]
      simp [hb]

/-- The first free key of a name has the number of times the name will have been there. -/
theorem LocalScopes.FirstFree.eq_count {l : LocalScopes} {k : Nat} (h : l.FirstFree name k)
    (hkeys : l.keys = numberedKeys names) (hnames : Unsuffixed (names ++ [name])) :
    k = names.count name + 1 := by
  have hmem {m : Nat} (hm : 1 ≤ m) : numberedKey name m ∈ l.keys ↔ m ≤ names.count name := by
    rw [hkeys]
    exact numberedKey_mem_numberedKeys_iff hnames hm
  have hfree := (hmem h.pos).not.mp h.free
  by_contra hne
  have hlt : names.count name + 1 < k := by omega
  have htaken := (hmem (Nat.le_add_left 1 _)).mp (h.taken _ (Nat.le_add_left 1 _) hlt)
  omega

end Counted

end CSharpAudit
