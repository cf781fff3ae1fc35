import CSharpAudit.Symbol.Index

/-!
# Looking symbols up

What an index of symbols answers is told by the symbols that were added to it, in their order, and
by nothing else: no two symbols get in each other's way, whatever names and declarations they share.

## Main definitions

* `numberedWhere` — the symbols of a list that satisfy a test, as an index holds them
* `IsLastSegment` — the part of a name behind its last point

## Main results

* `SymbolIndex.finds_what_was_added` — the answers of an index, for any symbols added
* `SymbolIndex.empty_name_not_resolved` — the empty name does not refer to a class without one
-/

namespace CSharpAudit

/-! ### Last segments -/

/-- A part of a name stands behind its last point, or is the whole name where it has none. -/
def IsLastSegment (name segment : String) : Prop :=
  '.' ∉ segment.toList ∧ (segment = name ∨ ∃ front, name = front ++ "." ++ segment)

/-- The last segment of a name is found behind its last point. -/
theorem isLastSegment_lastSegment (name : String) : IsLastSegment name (lastSegment name) := by
  by_cases h : '.' ∈ name.toList
  · -- the first point from behind
    obtain ⟨back, front, hsplit, hback⟩ := List.eq_append_cons_of_mem (List.mem_reverse.mpr h)
    have hname : name.toList = front.reverse ++ '.' :: back.reverse := by
      rw [← List.reverse_reverse name.toList, hsplit]
      simp
    have hpoint : '.' ∉ back.reverse := by simpa using hback
    have hsegment : lastSegment name = String.ofList back.reverse := by
      rw [lastSegment, Text.cutAt, hname, List.splitOn_append_cons_self,
        List.splitOn_eq_singleton hpoint, List.map_append, List.map_singleton,
        List.getLast?_concat, Option.getD_some]
    refine ⟨by rwa [hsegment, String.toList_ofList], .inr ⟨String.ofList front.reverse, ?_⟩⟩
    rw [← String.toList_inj, hname, hsegment]
    simp
  · have hsegment : lastSegment name = name := by
      rw [lastSegment, Text.cutAt, List.splitOn_eq_singleton h]
      simp
    rw [hsegment]
    exact ⟨h, .inl rfl⟩

/-! ### What an index finds -/

/-- The symbols of a list that satisfy a test, as an index holds them to which the list was
added. -/
def numberedWhere (test : Symbol → Bool) (ss : List Symbol) : List Symbol :=
  (ss.zipIdx.filter fun p => test p.1).map fun p => p.1.numbered p.2

namespace SymbolIndex

variable (ss : List Symbol)

/-- Symbols are numbered in the order in which they are added. -/
theorem symbols_ofSymbols :
    (ofSymbols ss).symbols = ss.zipIdx.map fun p => p.1.numbered p.2 :=
  symbols_eq ss

/-- A test of the symbols in an index is one of the symbols that were added. -/
theorem filter_symbols {test added : Symbol → Bool} (h : ∀ s i, test (s.numbered i) = added s) :
    (ofSymbols ss).symbols.filter test = numberedWhere added ss := by
  rw [symbols_ofSymbols, List.filter_map, numberedWhere]
  congr 2
  funext p
  exact h p.1 p.2

/-- The first of the symbols that pass both tests is found. -/
theorem find?_numberedWhere {test other : Symbol → Bool}
    (h : ∀ s i, other (s.numbered i) = other s) :
    (numberedWhere test ss).find? other =
      (numberedWhere (fun s => test s && other s) ss).head? := by
  rw [← List.head?_filter, numberedWhere, numberedWhere, List.filter_map, List.filter_filter]
  congr 3
  funext p
  exact (congrArg (· && test p.1) (h p.1 p.2)).trans (Bool.and_comm _ _)

/-- Symbols are found by their full names, in normal form. -/
theorem withFullName_ofSymbols (name : String) : (ofSymbols ss).withFullName name =
    numberedWhere (fun s => Text.normalize s.fullName == Text.normalize name) ss := by
  rw [withFullName_eq]
  exact filter_symbols ss fun _ _ => rfl

/-- They are also found by their names alone. -/
theorem withName_ofSymbols (name : String) : (ofSymbols ss).withName name =
    numberedWhere (fun s => Text.normalize s.name == Text.normalize name) ss := by
  rw [withName_eq]
  exact filter_symbols ss fun _ _ => rfl

/-- The answers of an index to which symbols were added one after the other. Each symbol has the
number of its place, all symbols with a name are found in their order, and the last one of a
declaration is found for it. A name refers to the first type with that full name, else to the first
type that is named like the last segment; the empty name refers to nothing. -/
theorem finds_what_was_added :
    (ofSymbols ss).symbols.map (·.id) = List.range ss.length ∧
    (∀ i : Nat, (ofSymbols ss).symbol? i = ss[i]?.map (·.numbered i)) ∧
    (∀ name, (ofSymbols ss).withFullName name =
      numberedWhere (fun s => Text.normalize s.fullName == Text.normalize name) ss) ∧
    (∀ name, (ofSymbols ss).withName name =
      numberedWhere (fun s => Text.normalize s.name == Text.normalize name) ss) ∧
    (∀ address, (ofSymbols ss).ofDecl? address =
      (numberedWhere (·.address? == some address) ss).getLast?) ∧
    ∀ name, ∃ segment, IsLastSegment name segment ∧ (ofSymbols ss).resolveType name =
      if name = "" then none
      else (numberedWhere (fun s =>
          Text.normalize s.fullName == Text.normalize name && s.kind.isType) ss).head?.or
        (numberedWhere (fun s =>
          Text.normalize s.name == Text.normalize segment && s.kind.isType) ss).head? := by
  refine ⟨?_, ?_, withFullName_ofSymbols ss, withName_ofSymbols ss, ?_, ?_⟩
  · rw [symbols_ofSymbols, List.map_map, List.range_eq_range']
    exact List.zipIdx_map_snd 0 ss
  -- No number of a symbol is negative, so looking one up is indexing.
  · intro i
    have hat : (ofSymbols ss).symbol? i = (ofSymbols ss).symbols[i]? :=
      if_neg (Int.not_lt.mpr (Int.natCast_nonneg i))
    rw [hat, symbols_ofSymbols, List.getElem?_map, List.getElem?_zipIdx, Option.map_map,
      Nat.zero_add]
    rfl
  · intro address
    have hadded : ∀ (s : Symbol) i, ((s.numbered i).address? == some address) =
        (s.address? == some address) := fun _ _ => rfl
    rw [ofDecl?_eq, filter_symbols ss hadded]
  · intro name
    refine ⟨lastSegment name, isLastSegment_lastSegment name, ?_⟩
    rw [resolveType, withFullName_ofSymbols, withName_ofSymbols,
      find?_numberedWhere ss fun _ _ => rfl, find?_numberedWhere ss fun _ _ => rfl]
    simp only [String.isEmpty_iff]

/-- A class without a name. -/
def nameless : Symbol := { name := "", fullName := "", kind := .classType }

/-- A class without a name is found by its full name, which is empty, and is not what the empty name
refers to. -/
theorem empty_name_not_resolved :
    ((ofSymbols [nameless]).withFullName "").any (·.kind.isType) = true ∧
    (ofSymbols [nameless]).resolveType "" = none := by
  constructor
  · rw [withFullName_ofSymbols]
    decide +kernel
  · rfl

end SymbolIndex

end CSharpAudit
