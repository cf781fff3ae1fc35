import CSharpAudit.Report.Merge
import Mathlib.Data.List.Sort
import Mathlib.Order.Compare

/-!
# Lists in order

A stable sort keeps the order of elements that are tied, so its result is fixed by the elements and
by the order in which each class of tied elements is listed. Texts that are listed in order and each
once are fixed by what they are.

## Main results

* `mergeSort_eq_of_ties` — lists that agree on each class of tied elements are sorted to the same
* `Diagnostics.sort_eq_of_files` — lists that agree on the findings of each file are sorted to the
  same
* `Merge.sortedOnce_congr` — lists of the same texts have the same texts in order
-/

namespace CSharpAudit

section Sorting

variable {α : Type} {le : α → α → Bool} {l l' : List α}

/-- Whether neither of two elements has to stand in front of the other. -/
def tied (le : α → α → Bool) (a b : α) : Bool := le a b && le b a

/-- Sorted lists that agree on each class of tied elements are the same. -/
theorem eq_of_pairwise_of_ties (hrefl : ∀ a, le a a = true) (hl : l.Pairwise (le · ·))
    (hl' : l'.Pairwise (le · ·)) (h : ∀ a, l.filter (tied le a) = l'.filter (tied le a)) :
    l = l' := by
  have hself : ∀ a, tied le a a = true := fun a => by rw [tied, hrefl, Bool.and_self]
  induction l generalizing l' with
  | nil =>
    cases l' with
    | nil => rfl
    | cons y t' => simpa [hself] using h y
  | cons x t ih =>
    cases l' with
    | nil => simpa [hself] using h x
    | cons y t' =>
      obtain ⟨hx, ht⟩ := List.pairwise_cons.mp hl
      obtain ⟨hy, ht'⟩ := List.pairwise_cons.mp hl'
      -- the heads are tied, since each stands in front of the other somewhere
      have hxy : le x y = true := by
        have hmem : y ∈ (x :: t).filter (tied le y) := by simp [h y, hself]
        rcases List.mem_cons.mp (List.mem_of_mem_filter hmem) with rfl | hmem
        · exact hrefl y
        · exact hx y hmem
      have hyx : le y x = true := by
        have hmem : x ∈ (y :: t').filter (tied le x) := by simp [← h x, hself]
        rcases List.mem_cons.mp (List.mem_of_mem_filter hmem) with rfl | hmem
        · exact hrefl x
        · exact hy x hmem
      have htied : tied le x y = true := by rw [tied, hxy, hyx, Bool.and_self]
      have hheads := h x
      rw [List.filter_cons_of_pos (hself x), List.filter_cons_of_pos htied] at hheads
      obtain rfl := (List.cons.inj hheads).1
      rw [ih ht ht' fun a => ?_]
      have htails := h a
      rw [List.filter_cons, List.filter_cons] at htails
      split at htails
      · exact (List.cons.inj htails).2
      · exact htails

variable (htrans : ∀ a b c, le a b = true → le b c = true → le a c = true)
  (htotal : ∀ a b, (le a b || le b a) = true)

include htrans htotal

/-- A stable sort keeps the order of tied elements. -/
theorem filter_tied_mergeSort (l : List α) (a : α) :
    (l.mergeSort le).filter (tied le a) = l.filter (tied le a) := by
  have hsorted : (l.filter (tied le a)).Pairwise (le · ·) := by
    refine List.pairwise_of_forall_mem_list fun b hb c hc => ?_
    have hb := (List.mem_filter.mp hb).2
    have hc := (List.mem_filter.mp hc).2
    simp only [tied, Bool.and_eq_true] at hb hc
    exact htrans b a c hb.2 hc.1
  have hsublist := (List.sublist_mergeSort htrans htotal hsorted List.filter_sublist).filter
    (tied le a)
  simp only [List.filter_filter, Bool.and_self] at hsublist
  exact (hsublist.eq_of_length ((List.mergeSort_perm l le).filter _).length_eq.symm).symm

/-- Lists that agree on each class of tied elements are sorted to the same list. -/
theorem mergeSort_eq_of_ties (h : ∀ a, l.filter (tied le a) = l'.filter (tied le a)) :
    l.mergeSort le = l'.mergeSort le := by
  refine eq_of_pairwise_of_ties (fun a => by simpa using htotal a a)
    (List.pairwise_mergeSort htrans htotal l) (List.pairwise_mergeSort htrans htotal l') fun a => ?_
  rw [filter_tied_mergeSort htrans htotal, filter_tied_mergeSort htrans htotal, h]

end Sorting

/-! ### Findings -/

namespace Diagnostic

/-- The order of findings compares one part after the other. -/
theorem compare_eq : compare = compareLex (compareOn (·.location.file))
    (compareLex (compareOn (·.location.line))
      (compareLex (compareOn (·.location.column)) (compareOn (·.code.id)))) := rfl

instance : Std.TransCmp compare := by
  rw [compare_eq]
  infer_instance

/-- Tied findings lie in the same file. -/
theorem file_eq_of_tied {a b : Diagnostic}
    (h : tied (fun a b => (a.compare b).isLE) a b = true) : a.location.file = b.location.file := by
  simp only [tied, Bool.and_eq_true] at h
  have heq : a.compare b = .eq := Std.OrientedCmp.isLE_antisymm h.1 h.2
  exact Std.LawfulEqOrd.eq_of_compare (Ordering.then_eq_eq.mp heq).1

end Diagnostic

/-- Two values are comparable in one way or the other. -/
theorem isLE_total {α : Type} (cmp : α → α → Ordering) [Std.OrientedCmp cmp] (a b : α) :
    ((cmp a b).isLE || (cmp b a).isLE) = true := by
  rw [show cmp b a = (cmp a b).swap from Std.OrientedCmp.eq_swap]
  cases cmp a b <;> rfl

/-- Lists that agree on the findings of each file are sorted to the same list. -/
theorem Diagnostics.sort_eq_of_files {ds ds' : List Diagnostic}
    (h : ∀ file, ds.filter (·.location.file == file) = ds'.filter (·.location.file == file)) :
    Diagnostics.sort ds = Diagnostics.sort ds' := by
  refine mergeSort_eq_of_ties (fun _ _ _ => Std.TransCmp.isLE_trans)
    (isLE_total Diagnostic.compare) fun a => ?_
  have hclass : ∀ ds : List Diagnostic, ds.filter (tied (fun a b => (a.compare b).isLE) a) =
      (ds.filter (·.location.file == a.location.file)).filter
        (tied (fun a b => (a.compare b).isLE) a) := by
    intro ds
    rw [List.filter_filter]
    refine List.filter_congr fun b _ => ?_
    cases htied : tied (fun a b => (a.compare b).isLE) a b with
    | false => rfl
    | true => simp [Diagnostic.file_eq_of_tied htied]
  rw [hclass ds, hclass ds', h]

/-! ### Texts -/

section EraseDups

variable {α : Type} [BEq α]

theorem eraseDups_sublist (l : List α) : l.eraseDups.Sublist l := by
  -- the rest is filtered before its repetitions are erased, so the induction is on the length
  induction hlength : l.length using Nat.strong_induction_on generalizing l with
  | h n ih =>
    cases l with
    | nil => exact .refl _
    | cons a l =>
      rw [List.eraseDups_cons]
      have hlt := Nat.lt_succ_of_le (List.length_filter_le (fun b => !b == a) l)
      exact ((ih _ (hlength ▸ hlt) _ rfl).trans List.filter_sublist).cons_cons a

variable [LawfulBEq α]

theorem nodup_eraseDups (l : List α) : l.eraseDups.Nodup := by
  induction hlength : l.length using Nat.strong_induction_on generalizing l with
  | h n ih =>
    cases l with
    | nil => exact .nil
    | cons a l =>
      rw [List.eraseDups_cons, List.nodup_cons, List.mem_eraseDups]
      have hlt := Nat.lt_succ_of_le (List.length_filter_le (fun b => !b == a) l)
      exact ⟨by simp, ih _ (hlength ▸ hlt) _ rfl⟩

/-- Lists of the same elements have as many different ones. -/
theorem perm_eraseDups {l l' : List α} (h : ∀ a, a ∈ l ↔ a ∈ l') :
    l.eraseDups.Perm l'.eraseDups :=
  (List.perm_ext_iff_of_nodup (nodup_eraseDups l) (nodup_eraseDups l')).mpr fun a => by
    rw [List.mem_eraseDups, List.mem_eraseDups, h]

end EraseDups

/-- Texts in order are fixed by what they are and how often. -/
theorem texts_eq_of_perm {texts texts' : List String} (h : texts.Perm texts')
    (hsorted : texts.Pairwise fun a b => (compare a b).isLE = true)
    (hsorted' : texts'.Pairwise fun a b => (compare a b).isLE = true) : texts = texts' :=
  List.Perm.eq_of_pairwise
    (fun _ _ _ _ hab hba => Std.LawfulEqOrd.eq_of_compare (Std.OrientedCmp.isLE_antisymm hab hba))
    hsorted hsorted' h

namespace Merge

variable {texts texts' : List String}

theorem mem_sortedOnce {text : String} : text ∈ sortedOnce texts ↔ text ∈ texts := by
  rw [sortedOnce, List.mem_eraseDups, List.mem_mergeSort]

theorem nodup_sortedOnce : (sortedOnce texts).Nodup := nodup_eraseDups _

/-- Lists of the same texts have the same texts in order. -/
theorem sortedOnce_congr (h : ∀ text, text ∈ texts ↔ text ∈ texts') :
    sortedOnce texts = sortedOnce texts' := by
  have hsorted : ∀ texts, (sortedOnce texts).Pairwise fun a b => (compare a b).isLE = true :=
    fun texts => (List.pairwise_mergeSort (fun _ _ _ => Std.TransCmp.isLE_trans)
      (isLE_total compare) texts).sublist (eraseDups_sublist _)
  refine texts_eq_of_perm (perm_eraseDups fun text => ?_) (hsorted texts) (hsorted texts')
  rw [List.mem_mergeSort, List.mem_mergeSort, h]

end Merge

end CSharpAudit
