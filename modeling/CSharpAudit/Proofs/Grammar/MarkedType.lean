import CSharpAudit.Proofs.Grammar.WrittenType

/-!
# Types with marks

Any number of question marks, asterisks and bracket pairs may stand behind a type, in any order. A
question mark directly before a bracket ends the reading, since in an expression it begins a
conditional access; so `T?[] x` is not read as an array of nullable elements.

## Main definitions

* `MarkedType` — a written type with its marks and an identifier behind it
* `MarkedType.ReadAsWritten` — it is read up to the identifier, with the marks it was written with

## Main results

* `Grammar.stops_type` — types with a question mark before a bracket are not read in full
* `MarkedType.readAsWritten_iff_noMarkBeforeBracket` — which types with marks are read as they are
  written
-/

namespace CSharpAudit

open Grammar

section Clean

variable {t : Token} {ts us : List Token} {W : List Token → TypeRef → Prop}

/-- Two lists of tokens do not end in a question mark if none of them does. -/
theorem NoMarkAtEnd.append (hts : NoMarkAtEnd ts) (hus : NoMarkAtEnd us) :
    NoMarkAtEnd (ts ++ us) := by
  intro q hq
  rw [List.getLast?_append, Option.mem_def, Option.or_eq_some_iff] at hq
  rcases hq with hq | ⟨-, hq⟩
  · exact hus q hq
  · exact hts q hq

theorem noMarkAtEnd_concat (ts : List Token) (ht : t.is "?" = false) : NoMarkAtEnd (ts ++ [t]) := by
  intro q hq
  rw [List.getLast?_concat] at hq
  cases hq
  exact ht

theorem WritesFirst.noMarkAtEnd {fs : List Token} {first : String} (h : WritesFirst fs first) :
    NoMarkAtEnd fs := by
  cases h with
  | plain hi => exact noMarkAtEnd_concat [] (Token.is_eq_false_of_isIdent hi _)
  | @qualified i sep j hi hsep hj =>
    exact noMarkAtEnd_concat [i, sep] (Token.is_eq_false_of_isIdent hj _)

theorem WritesArgs.noMarkAtEnd {before args : List TypeRef} (h : WritesArgs W before ts args) :
    NoMarkAtEnd ts := by
  cases h with
  | none => exact fun _ hq => nomatch hq
  | @some o c ts _ _ ho h hc => exact noMarkAtEnd_concat (o :: ts) (Token.is_eq_of_is hc _)

theorem WritesSegments.noMarkAtEnd {args args' : List TypeRef} {names : List String}
    (h : WritesSegments W args ts names args') : NoMarkAtEnd ts := by
  induction h with
  | nil => exact fun _ hq => nomatch hq
  | @cons point i us ts args args' args'' names hpoint hi hus _ ih =>
    exact NoMarkAtEnd.append (noMarkAtEnd_concat [point] (Token.is_eq_false_of_isIdent hi _))
      (hus.noMarkAtEnd.append ih)

/-- A type without marks does not end in a question mark. -/
theorem WritesUnmarked.noMarkAtEnd {t : TypeRef} (h : WritesUnmarked W ts t) : NoMarkAtEnd ts := by
  cases h with
  | predefined ht =>
    exact noMarkAtEnd_concat [] (Token.BeginsType.is_eq (.inr ht) (by decide))
  | named hfs hus hts => exact hfs.noMarkAtEnd.append (hus.noMarkAtEnd.append hts.noMarkAtEnd)
  | @tuple o c ts _ ho h htwo hc =>
    exact noMarkAtEnd_concat (o :: ts) (Token.is_eq_of_is hc _)

theorem WritesFirst.clean {fs : List Token} {first : String} (h : WritesFirst fs first) :
    NoMarkBeforeBracket fs := by
  cases h with
  | plain hi => exact List.isChain_singleton _
  | qualified hi hsep hj =>
    exact .cons (Token.is_eq_false_of_isIdent hi _) <| .cons (Token.is_eq_of_is hsep _) <|
      List.isChain_singleton _

/-- Inside of one mark no question mark stands before a bracket. -/
theorem TypeMark.Writes.clean {m : TypeMark} (h : m.Writes ts) : NoMarkBeforeBracket ts := by
  cases h with
  | nullable => exact List.isChain_singleton _
  | pointer => exact List.isChain_singleton _
  | @array o c cs ho hcs hc =>
    refine .cons (Token.is_eq_of_is ho _) (.concat ?_ (Token.is_eq_of_is hc _))
    induction cs with
    | nil => exact List.isChain_nil
    | cons t cs ih =>
      obtain ⟨ht, hcs⟩ := List.forall_mem_cons.mp hcs
      exact .cons (Token.is_eq_of_is ht _) (ih hcs)

/-- Only a question mark ends with a question mark. -/
theorem TypeMark.Writes.eq_nullable {m : TypeMark} (h : m.Writes ts) {q : Token}
    (hq : q ∈ ts.getLast?) (hmark : q.is "?" = true) : m = .nullable := by
  cases h with
  | nullable => rfl
  | pointer hs =>
    cases hq
    exact absurd hmark (by simp [Token.is_eq_of_is hs])
  | @array o c cs ho hcs hc =>
    rw [← List.cons_append, List.getLast?_concat] at hq
    cases hq
    exact absurd hmark (by simp [Token.is_eq_of_is hc])

end Clean

namespace Grammar

variable {α β : Type} {x : Input} {self : Rules} {t : Token} {ts r vs : List Token} {s : String}
  {n d : Nat}

/-! ### Parsers before a marked bracket -/

/-- What is left starts with a question mark and a bracket. -/
def AtMarkedBracket (ts : List Token) : Prop :=
  ∃ q b r, ts = q :: b :: r ∧ q.is "?" = true ∧ b.is "[" = true

section

variable {R : List Token → Prop}

/-- Before a marked bracket the current token is a question mark. -/
theorem AtMarkedBracket.is_eq (h : AtMarkedBracket ts) : (ahead x ts 0).is s = ("?" == s) := by
  obtain ⟨q, b, r, rfl, hq, -⟩ := h
  exact Token.is_eq_of_is hq s

/-- A mark before a bracket is not consumed by what expects another punctuator. -/
theorem AtMarkedBracket.expect (h : AtMarkedBracket ts) (hs : ("?" == s) = false)
    {f : Token → Parser β} : Stops x (Grammar.expect s >>= f) ts R := by
  intro k b c hrun
  obtain ⟨e, he⟩ := run_expect_not (c := ⟨ts, k⟩) (f := f) (h.is_eq.trans hs)
  cases he.symm.trans hrun

/-- No further item follows a marked bracket. -/
theorem AtMarkedBracket.moreItems {item : Parser α} (h : AtMarkedBracket ts) :
    Stops x (moreItems item) ts AtMarkedBracket := by
  intro k as c hrun
  have hcomma : (ahead x ts 0).is "," = false := h.is_eq
  cases (run_moreItems_none (c := ⟨ts, k⟩) hcomma).symm.trans hrun
  exact h

end

/-! ### Types with a mark before a bracket -/

/-- A list stops where the first item that is not read in full stops. -/
theorem stops_separated {γ : Type} {W : List Token → γ → Prop} {e : α → γ} {item : Parser α}
    {as : List γ} {Φ : Token → Prop} (hshort : Shortens item)
    (hitem : ∀ vs a rest, vs.length < n → W vs a → NoMarkBeforeBracket vs → Φ (ahead x rest 0) →
      Takes x item vs rest (e · = a))
    (hstops : ∀ vs a rest, vs.length < n → W vs a → ¬NoMarkBeforeBracket vs → Φ (ahead x rest 0) →
      Stops x item (vs ++ rest) AtMarkedBracket)
    (hΦ : ∀ t, t.is "," = true → Φ t) (hts : SeparatedBy W ts as) (hn : ts.length < n)
    (hclean : ¬NoMarkBeforeBracket ts) (hus : Φ (ahead x r 0)) :
    Stops x (separated item) (ts ++ r) AtMarkedBracket := by
  -- along the list: the mark stands in its first item or behind it
  induction hts with
  | @one ts a h =>
    exact (hstops ts a r hn h hclean hus).bind fun _ _ hrest =>
      hrest.moreItems.bind fun _ _ hrest => .pure hrest
  | @cons ts vs comma a as h ht hvs ih =>
    rw [List.length_append, List.length_cons] at hn
    have hbehind : Φ (ahead x (comma :: vs ++ r) 0) := hΦ comma ht
    rw [List.append_assoc]
    by_cases hcleanTs : NoMarkBeforeBracket ts
    · have hvs : ¬NoMarkBeforeBracket vs := fun hvs => hclean <| by
        refine hcleanTs.append (.cons (Token.is_eq_of_is ht _) hvs) ?_
        rintro q - b hb -
        cases hb
        exact Token.is_eq_of_is ht _
      refine (hitem ts a _ (by omega) h hcleanTs hbehind).stops fun b _ => ?_
      refine Stops.bind (S := AtMarkedBracket) ?_ fun _ _ hrest => .pure hrest
      intro k bs c hrun
      rw [List.cons_append, run_moreItems_comma hshort ht] at hrun
      exact ih (by omega) hvs hrun
    · exact (hstops ts a _ (by omega) h hcleanTs hbehind).bind fun _ _ hrest =>
        hrest.moreItems.bind fun _ _ hrest => .pure hrest

/-- Shorter types with a mark before a bracket stop at such a mark. -/
def StopsShorter (x : Input) (self : Rules) (n : Nat) : Prop :=
  ∀ ⦃ts t r⦄, ts.length < n → WritesType ts t → ¬NoMarkBeforeBracket ts →
    (ahead x r 0).EndsType → Stops x self.type (ts ++ r) AtMarkedBracket

section

variable (hself : ReadsShorter x self n) (hstops : StopsShorter x self n)
  (hshort : Shortens self.type)

include hstops

/-- A type argument with a mark before a bracket stops there. -/
theorem stops_typeArg {t : TypeRef} (h : WritesArg WritesType ts t) (hn : ts.length < n)
    (hclean : ¬NoMarkBeforeBracket ts)
    (hus : ((ahead x r 0).is "," || (ahead x r 0).is ">") = true) :
    Stops x (typeArg self) (ts ++ r) AtMarkedBracket := by
  cases h with
  | omitted => exact absurd List.isChain_nil hclean
  | type h =>
    have hends : (ahead x r 0).EndsType := by
      rcases Bool.or_eq_true_iff.mp hus with h | h <;> exact Token.endsType_of_is h (by decide)
    have htype := hstops hn h hclean hends
    obtain ⟨b, bs, rfl, hb⟩ := h.exists_cons
    intro k a c hrun
    rw [typeArg, run_is_bind, run_is_bind] at hrun
    simp only [List.cons_append, ahead_zero, Token.is_eq_false_of_begins hb (s := ",") (by decide),
      Token.is_eq_false_of_begins hb (s := ">") (by decide), Bool.or_self, Bool.false_eq_true,
      if_false] at hrun
    exact htype hrun

theorem stops_tupleElement {a : TypeRef × String} (h : WritesElement WritesType ts a)
    (hn : ts.length < n) (hclean : ¬NoMarkBeforeBracket ts)
    (hus : ((ahead x r 0).is "," || (ahead x r 0).is ")") = true) :
    Stops x (tupleElement self) (ts ++ r) AtMarkedBracket := by
  have hname {t : TypeRef} {r : List Token} (hus : AtMarkedBracket r) :
      Stops x (do return (t, ← optionalIdent)) r AtMarkedBracket := by
    refine Stops.bind (S := AtMarkedBracket) ?_ fun _ _ h => .pure h
    obtain ⟨q, b, r, rfl, hq, hb⟩ := hus
    intro k s c hrun
    have hident : q.isIdent = false := by
      by_contra hident
      rw [Token.is_eq_false_of_isIdent (by simpa using hident)] at hq
      cases hq
    simp [optionalIdent, hident] at hrun
    obtain ⟨-, rfl⟩ := hrun
    exact ⟨q, b, r, rfl, hq, hb⟩
  cases h with
  | unnamed h =>
    have hends : (ahead x r 0).EndsType := by
      rcases Bool.or_eq_true_iff.mp hus with h | h <;> exact Token.endsType_of_is h (by decide)
    exact (hstops hn h hclean hends).bind fun _ _ hrest => hname hrest
  | @named ts t i h hi =>
    -- The name behind the type is no bracket, so the mark stands in the type.
    rw [List.length_append] at hn
    have hts : ¬NoMarkBeforeBracket ts := fun hts =>
      hclean (hts.concat (Token.is_eq_false_of_isIdent hi _))
    rw [List.append_assoc]
    have htype := hstops (r := [i] ++ r) (by omega) h hts (Token.endsType_of_isIdent hi)
    exact htype.bind fun _ _ hrest => hname hrest

include hself hshort

/-- Then the angle bracket is missing, so that the list is not read. -/
theorem stops_typeArgs {o c : Token} {args : List TypeRef} (ho : o.is "<" = true)
    (h : SeparatedBy (WritesArg WritesType) ts args) (hc : c.is ">" = true) (hn : ts.length < n)
    (hclean : ¬NoMarkBeforeBracket (o :: (ts ++ [c]))) :
    Stops x (typeArgs self) (o :: (ts ++ [c]) ++ r) fun _ => False := by
  have hts : ¬NoMarkBeforeBracket ts := fun hts =>
    hclean (.cons (Token.is_eq_of_is ho _) (hts.concat (Token.is_eq_of_is hc _)))
  rw [List.cons_append, List.append_assoc]
  refine .discard <| .expect <| Stops.bind (S := AtMarkedBracket) ?_ fun _ _ hrest =>
    .discard (hrest.expect rfl)
  exact stops_separated (n := n) (Φ := fun t => (t.is "," || t.is ">") = true)
    (shortens_typeArg hshort) (fun vs a rest hn h hclean hus => takes_typeArg hself h hn hclean hus)
    (fun vs a rest hn h hclean hus => stops_typeArg hstops h hn hclean hus)
    (fun t ht => by simp [ht]) h hn hts (by simp [hc])

theorem stops_replaceArgs {before args bs : List TypeRef} (h : WritesArgs WritesType before ts args)
    (hn : ts.length ≤ n) (hclean : ¬NoMarkBeforeBracket ts) :
    Stops x (replaceArgs self bs) (ts ++ r) fun _ => False := by
  cases h with
  | none => exact absurd List.isChain_nil hclean
  | @some o c ts before args ho h hc =>
    have hlt : ts.length < n := by simp only [List.length_cons, List.length_append] at hn; omega
    have hstop := stops_typeArgs hself hstops hshort (r := r) ho h hc hlt hclean
    intro k a c' hrun
    rw [replaceArgs, run_is_bind] at hrun
    simp only [List.cons_append, ahead_zero, ho, if_true] at hrun
    exact hstop hrun

/-- Nor is a tuple with such an element. -/
theorem stops_tupleType {o c : Token} {elements : List (TypeRef × String)} (ho : o.is "(" = true)
    (h : SeparatedBy (WritesElement WritesType) ts elements)
    (hc : c.is ")" = true) (hn : ts.length < n) (hclean : ¬NoMarkBeforeBracket (o :: (ts ++ [c]))) :
    Stops x (tupleType self) (o :: (ts ++ [c]) ++ r) fun _ => False := by
  have helement : Shortens (tupleElement self) :=
    hshort.bind fun _ => Shortens.optionalIdent.bind fun _ => .pure _
  have hts : ¬NoMarkBeforeBracket ts := fun hts =>
    hclean (.cons (Token.is_eq_of_is ho _) (hts.concat (Token.is_eq_of_is hc _)))
  rw [List.cons_append, List.append_assoc]
  refine .discard <| .expect <| Stops.bind (S := AtMarkedBracket) ?_ fun _ _ hrest =>
    .discard (hrest.expect rfl)
  exact stops_separated (n := n) (Φ := fun t => (t.is "," || t.is ")") = true) helement
    (fun vs a rest hn h hclean hus => takes_tupleElement hself h hn hclean hus)
    (fun vs a rest hn h hclean hus => stops_tupleElement hstops h hn hclean hus)
    (fun t ht => by simp [ht]) h hn hts (by simp [hc])

theorem stops_segmentStep {point i : Token} {args args' : List TypeRef} (bs : List TypeRef)
    (segments : List String) (hpoint : point.is "." = true) (hi : i.isIdent = true)
    (h : WritesArgs WritesType args ts args') (hn : ts.length ≤ n)
    (hclean : ¬NoMarkBeforeBracket ts) :
    Stops x (segmentStep self (segments, bs)) (point :: i :: ts ++ r) fun _ => False := by
  intro k o c hrun
  rw [segmentStep, run_is_bind, run_peekIdent_bind] at hrun
  simp only [List.cons_append, ahead_zero, ahead_succ, hpoint, hi, Bool.and_self, if_true] at hrun
  rw [run_discard_bind] at hrun
  have hrest : Stops x (do
      let args ← replaceArgs self bs
      return some (i.text :: segments, args)) (ts ++ r) fun _ => False :=
    (stops_replaceArgs hself hstops hshort h hn hclean).fail_bind
  exact hrest hrun

/-- Nor is a name with such arguments. -/
theorem stops_segments {args args' bs : List TypeRef} {names segments : List String}
    (h : WritesSegments WritesType args ts names args') (hn : ts.length ≤ n)
    (hclean : ¬NoMarkBeforeBracket ts) (hbs : bs.map TypeRef.erase = args)
    (hangle : (ahead x r 0).is "<" = false) :
    Stops x (extend (segmentStep self) (segments, bs)) (ts ++ r) fun _ => False := by
  induction h generalizing bs segments with
  | nil => exact absurd List.isChain_nil hclean
  | @cons point i ts ts' args args' args'' names hpt hi hargs hts ih =>
    simp only [List.length_cons, List.length_append] at hn
    by_cases hcleanTs : NoMarkBeforeBracket ts
    · have hcleanTs' : ¬NoMarkBeforeBracket ts' := fun hts' => hclean <|
        .cons (Token.is_eq_of_is hpt _) <| .cons (Token.is_eq_false_of_isIdent hi _) <|
          hcleanTs.append_of_end hts' hargs.noMarkAtEnd
      have hstep := takes_segmentStep hself hshort (r := ts' ++ r) segments hpt hi
        hargs (by omega) hcleanTs hbs (ahead_segments hts hangle (by decide))
      have hmore := hstep.stopsExtend (List.cons_ne_nil _ _) (S := fun _ => False) fun b hb => by
        obtain ⟨segments', bs'⟩ := b
        obtain ⟨rfl, hbs'⟩ := hb
        exact ih (by omega) hcleanTs' hbs'
      simpa [List.append_assoc] using hmore
    · have hstep := stops_segmentStep hself hstops hshort (r := ts' ++ r) bs segments
        hpt hi hargs (by omega) hcleanTs
      simpa [List.append_assoc] using Stops.extendError (S := fun _ => False) hstep

theorem stops_namedType {fs ts' : List Token} {first : String} {names : List String}
    {args args' : List TypeRef} (hfs : WritesFirst fs first)
    (hus : WritesArgs WritesType [] ts args)
    (hts : WritesSegments WritesType args ts' names args') (hn : ts.length + ts'.length ≤ n)
    (hclean : ¬NoMarkBeforeBracket (fs ++ (ts ++ ts'))) (hends : Ends (ahead x r 0)) :
    Stops x (namedType self) (fs ++ (ts ++ ts') ++ r) fun _ => False := by
  -- The first segment is read in any case, so the mark stands in arguments or further segments.
  have hfirst : Takes x firstSegment fs ((ts ++ ts') ++ r) (· = first) := by
    refine takes_firstSegment hfs ?_
    rw [List.append_assoc]
    cases hus with
    | none =>
      show (ahead x (ts' ++ r) 0).is "::" = false
      exact ahead_segments hts hends.colons (by decide)
    | some ho => exact Token.is_eq_of_is ho _
  rw [namedType_eq, List.append_assoc]
  refine hfirst.stops ?_
  rintro _ rfl
  rw [List.append_assoc]
  by_cases hcleanTs : NoMarkBeforeBracket ts
  · have hcleanTs' : ¬NoMarkBeforeBracket ts' := fun hts' => hclean <|
      hfs.clean.append_of_end (hcleanTs.append_of_end hts' hus.noMarkAtEnd) hfs.noMarkAtEnd
    refine (takes_replaceArgs hself hshort hus (by omega) hcleanTs rfl
      (ahead_segments hts hends.angle (by decide))).stops fun as has => ?_
    exact (stops_segments hself hstops hshort hts (by omega) hcleanTs' has hends.angle).fail_bind
  · exact (stops_replaceArgs hself hstops hshort hus (by omega) hcleanTs).fail_bind

/-- A type without marks is not read at all if a mark before a bracket stands inside of it.
-/
theorem stops_unmarkedType {t : TypeRef} (h : WritesUnmarked WritesType ts t) (hn : ts.length ≤ n)
    (hclean : ¬NoMarkBeforeBracket ts) (hends : Ends (ahead x r 0)) :
    Stops x (unmarkedType self) (ts ++ r) fun _ => False := by
  cases h with
  | predefined => exact absurd (List.isChain_singleton _) hclean
  | @named fs r' ts first names args args' hfs hus hts =>
    have hstop := stops_namedType hself hstops hshort (r := r) hfs hus hts
      (by simp only [List.length_append] at hn; omega) hclean hends
    obtain ⟨i, is, rfl, hi⟩ := hfs.exists_cons
    have hpredefined : i.isPredefinedType = false := by
      rw [Token.isIdent, beq_iff_eq] at hi
      simp [Token.isPredefinedType, hi]
    intro k a c hrun
    simp only [List.cons_append, unmarkedType, run_current_bind, ahead_zero,
      Token.is_eq_false_of_isIdent hi, hpredefined, hi, Bool.false_eq_true, if_false, if_true]
      at hrun
    exact hstop hrun
  | @tuple o c ts elements ho h htwo hc =>
    simp only [List.length_cons, List.length_append] at hn
    have hstop := stops_tupleType hself hstops hshort (r := r) ho h hc (by omega) hclean
    intro k a c' hrun
    rw [List.cons_append, unmarkedType, run_current_bind, run_ite, ahead_zero, if_pos ho] at hrun
    exact hstop hrun

end

/-- The loop over the marks ends at a question mark that stands before a bracket. -/
theorem stops_marks {ms : List TypeMark} (h : WritesMarks ts ms)
    (hclean : ¬NoMarkBeforeBracket ts) (hus : (ahead x r 0).EndsType) (t : TypeRef) :
    Stops x (extend typeMark t) (ts ++ r) AtMarkedBracket := by
  induction h generalizing t with
  | nil => exact absurd List.isChain_nil hclean
  | @cons vs ts m ms hvs hts ih =>
    -- Either this mark is the one, or it is read and the one stands behind it.
    by_cases hmark : m = .nullable ∧ (ahead x (ts ++ r) 0).is "[" = true
    · obtain ⟨rfl, hbracket⟩ := hmark
      cases hvs with
      | @nullable q hq =>
        have hat : ∃ b ws, ts ++ r = b :: ws := by
          rcases hts.head with rfl | ⟨b, bs, rfl, -⟩
          · have hend := hus "[" (by decide)
            exact absurd hbracket (by simpa using hend)
          · exact ⟨b, bs ++ r, rfl⟩
        obtain ⟨b, ws, heq⟩ := hat
        rw [heq] at hbracket
        have hstay : Takes x (typeMark t) [] ([q] ++ ts ++ r) (· = none) := by
          intro k
          refine ⟨none, k, ?_, rfl⟩
          have hb : b.is "[" = true := hbracket
          have hstar : q.is "*" = false := Token.is_eq_of_is hq _
          have hopen : q.is "[" = false := Token.is_eq_of_is hq _
          simp [typeMark, run_atArrayMark_bind, heq, hq, hb, hstar, hopen]
        intro k u c hrun
        obtain ⟨o, k', hrun', rfl⟩ := hstay k
        cases (run_extend_none hrun').symm.trans hrun
        exact ⟨q, b, ws, by simp [heq], hq, hbracket⟩
    · have hstep : Takes x (typeMark t) vs (ts ++ r) (· = some (m.on t)) :=
        takes_typeMark hvs fun hm => ⟨ahead_marks hts (hus _ (by decide)) (by decide),
          Bool.eq_false_iff.mpr fun hbracket => hmark ⟨hm, hbracket⟩⟩
      have hcleanTs : ¬NoMarkBeforeBracket ts := fun hcleanTs => hclean <|
        hvs.clean.append hcleanTs fun q hq b hb hq' => by
          obtain rfl := hvs.eq_nullable hq hq'
          refine Bool.eq_false_iff.mpr fun hbracket => hmark ⟨rfl, ?_⟩
          obtain ⟨bs, rfl⟩ := List.head?_eq_some_iff.mp hb
          exact hbracket
      rw [List.append_assoc]
      refine Takes.stopsExtend (P := (· = m.on t)) (hstep.imp ?_) ?_ ?_
      · rintro _ rfl
        exact ⟨_, rfl, rfl⟩
      · cases hvs <;> exact List.cons_ne_nil _ _
      · rintro _ rfl
        exact ih hcleanTs _

/-- A type with such a mark stops before it, or is not read at all. -/
theorem stops_type_of (hself : ReadsShorter x self n) (hstops : StopsShorter x self n)
    (hshort : Shortens self.type) {t : TypeRef}
    (h : WritesType ts t) (hn : ts.length ≤ n) (hclean : ¬NoMarkBeforeBracket ts)
    (hus : (ahead x r 0).EndsType) : Stops x (type self) (ts ++ r) AtMarkedBracket := by
  cases h with
  | @mk vs ts t ms hvs hts =>
    rw [List.length_append] at hn
    have hrest (start : Nat) : Stops x (do
        let marked ← extend typeMark (← unmarkedType self)
        return { marked with span := ← spanFrom start }) (vs ++ ts ++ r) AtMarkedBracket := by
      rw [List.append_assoc]
      by_cases hcleanVs : NoMarkBeforeBracket vs
      · have hcleanTs : ¬NoMarkBeforeBracket ts := fun hts' =>
          hclean (hcleanVs.append_of_end hts' hvs.noMarkAtEnd)
        refine (takes_unmarkedType hself hshort (r := ts ++ r) hvs (by omega) hcleanVs
          (ends_marks hts hus)).stops fun b _ => ?_
        refine (stops_marks hts hcleanTs hus b).bind fun u r hus => ?_
        intro k v c hrun
        cases hrun
        exact hus
      · exact (stops_unmarkedType hself hstops hshort hvs (by omega) hcleanVs
          (ends_marks hts hus)).fail_bind
    exact fun k a c hrun => hrest _ hrun

/-- A written type is not read beyond a question mark that stands before a bracket. -/
theorem stops_type {t : TypeRef} (h : WritesType ts t) (hd : ts.length ≤ d)
    (hclean : ¬NoMarkBeforeBracket ts) (hus : (ahead x r 0).EndsType) :
    Stops x (type (rules d)) (ts ++ r) AtMarkedBracket := by
  induction d generalizing ts r t with
  | zero =>
    obtain ⟨b, bs, rfl, -⟩ := h.exists_cons
    cases hd
  | succ d ih =>
    refine stops_type_of (n := d + 1) ?_ ?_ (shortens_type_rules _) h hd hclean hus
    · intro ts t r hn h hclean hus
      exact takes_type h (Nat.le_of_lt_succ hn) hclean hus
    · intro ts t r hn h hclean hus
      exact ih h (Nat.le_of_lt_succ hn) hclean hus

end Grammar

/-! ### Marks and the type they stand behind -/

variable {ms : List TypeMark} {t : TypeRef}

/-- A mark changes nothing but the marks of a type. -/
theorem foldl_on_eq {α : Type} {f : TypeRef → α} (hf : ∀ m t, f (TypeMark.on t m) = f t) :
    f (ms.foldl TypeMark.on t) = f t := by
  induction ms generalizing t with
  | nil => rfl
  | cons m ms ih => rw [List.foldl_cons, ih, hf]

/-- A type with marks is nullable if one of them is a question mark. -/
theorem nullable_foldl_on :
    (ms.foldl TypeMark.on t).nullable = true ↔ t.nullable = true ∨ TypeMark.nullable ∈ ms := by
  induction ms generalizing t with
  | nil => simp
  | cons m ms ih => rw [List.foldl_cons, ih]; cases m <;> simp [TypeMark.on]

theorem pointer_foldl_on :
    (ms.foldl TypeMark.on t).pointer = true ↔ t.pointer = true ∨ TypeMark.pointer ∈ ms := by
  induction ms generalizing t with
  | nil => simp
  | cons m ms ih => rw [List.foldl_cons, ih]; cases m <;> simp [TypeMark.on]

/-- Each bracket pair adds to the rank. -/
theorem rank_foldl_on : (ms.foldl TypeMark.on t).rank = t.rank + ms.count .array := by
  induction ms generalizing t with
  | nil => simp
  | cons m ms ih =>
    rw [List.foldl_cons, ih]
    cases m <;> simp [TypeMark.on]
    omega

/-- A type written without marks has none. -/
theorem WritesUnmarked.unmarked {W : List Token → TypeRef → Prop} {ts : List Token}
    (h : WritesUnmarked W ts t) : t.nullable = false ∧ t.pointer = false ∧ t.rank = 0 := by
  cases h <;> exact ⟨rfl, rfl, rfl⟩

/-- A written type with marks, and an identifier behind it. The rules are deep enough for the type,
as those of a file are for all its tokens. -/
structure MarkedType where
  input : Input
  stop : Nat
  depth : Nat
  baseTokens : List Token
  markTokens : List Token
  base : TypeRef
  marks : List TypeMark
  name : Token
  rest : List Token
  writes_base : WritesUnmarked WritesType baseTokens base
  writes_marks : WritesMarks markTokens marks
  name_isIdent : name.isIdent = true
  length_le : (baseTokens ++ markTokens).length ≤ depth

namespace MarkedType

variable (w : MarkedType)

/-- The type is read up to the identifier: the type in front of the marks is what was written, and
the marks are those that occur. -/
def ReadAsWritten : Prop :=
  ∃ t stop', type (rules w.depth) w.input
      ⟨w.baseTokens ++ w.markTokens ++ w.name :: w.rest, w.stop⟩ =
        .ok (t, ⟨w.name :: w.rest, stop'⟩) ∧
    t.name = w.base.name ∧ t.args.map TypeRef.erase = w.base.args ∧
    t.tupleNames = w.base.tupleNames ∧
    (t.nullable = true ↔ TypeMark.nullable ∈ w.marks) ∧
    (t.pointer = true ↔ TypeMark.pointer ∈ w.marks) ∧ t.rank = w.marks.count .array

theorem writesType :
    WritesType (w.baseTokens ++ w.markTokens) (w.marks.foldl TypeMark.on w.base) :=
  .mk w.writes_base w.writes_marks

/-- Which types with marks are read as they are written: those without a question mark directly
before a bracket, in their marks or anywhere inside. -/
theorem readAsWritten_iff_noMarkBeforeBracket :
    w.ReadAsWritten ↔ NoMarkBeforeBracket (w.baseTokens ++ w.markTokens) := by
  have hends : (ahead w.input (w.name :: w.rest) 0).EndsType :=
    Token.endsType_of_isIdent w.name_isIdent
  constructor
  · rintro ⟨t, stop', hrun, -⟩
    by_contra hclean
    -- Reading would stop at the mark, where no name stands.
    obtain ⟨q, b, us, heq, hq, -⟩ := stops_type w.writesType w.length_le hclean hends hrun
    have hname := Token.is_eq_false_of_isIdent w.name_isIdent "?"
    rw [(List.cons.inj heq).1, hq] at hname
    cases hname
  · intro hclean
    obtain ⟨t, stop', hrun, ht⟩ := takes_type w.writesType w.length_le hclean hends w.stop
    -- Each field is that of the base type, on which the marks are put one after another.
    obtain ⟨hnullable, hpointer, hrank⟩ := w.writes_base.unmarked
    refine ⟨t, stop', hrun, ?_, ?_, ?_, ?_, ?_, ?_⟩
    · rw [← TypeRef.name_erase, ht, foldl_on_eq (f := TypeRef.name) fun m _ => by cases m <;> rfl]
    · rw [← TypeRef.args_erase, ht, foldl_on_eq (f := TypeRef.args) fun m _ => by cases m <;> rfl]
    · rw [← TypeRef.tupleNames_erase, ht,
        foldl_on_eq (f := TypeRef.tupleNames) fun m _ => by cases m <;> rfl]
    · rw [← TypeRef.nullable_erase, ht, nullable_foldl_on]
      simp [hnullable]
    · rw [← TypeRef.pointer_erase, ht, pointer_foldl_on]
      simp [hpointer]
    · rw [← TypeRef.rank_erase, ht, rank_foldl_on, hrank, Nat.zero_add]

/-- The text `string?[] names;`. -/
def nullableElements : MarkedType where
  input := ⟨[], Token.final⟩
  stop := 0
  depth := 4
  baseTokens := [⟨.keyword, "string", ⟨0, 6⟩, ""⟩]
  markTokens := [⟨.punct, "?", ⟨6, 7⟩, ""⟩, ⟨.punct, "[", ⟨7, 8⟩, ""⟩, ⟨.punct, "]", ⟨8, 9⟩, ""⟩]
  base := { span := .none, name := "string" }
  marks := [.nullable, .array]
  name := ⟨.ident, "names", ⟨10, 15⟩, ""⟩
  rest := [⟨.punct, ";", ⟨15, 16⟩, ""⟩]
  writes_base := .predefined rfl
  writes_marks := .cons (.nullable rfl) (.cons (.array [] rfl (by simp) rfl) .nil)
  name_isIdent := rfl
  length_le := by decide

/-- The question mark is left over. -/
theorem nullableElements_not_readAsWritten : ¬nullableElements.ReadAsWritten := by
  rintro ⟨t, stop', hrun, -⟩
  have hread : type (rules nullableElements.depth) nullableElements.input
      ⟨nullableElements.baseTokens ++ nullableElements.markTokens ++
        nullableElements.name :: nullableElements.rest, nullableElements.stop⟩ =
      .ok ({ span := ⟨0, 6⟩, name := "string" }, ⟨nullableElements.markTokens ++
        nullableElements.name :: nullableElements.rest, 6⟩) := rfl
  cases hread.symm.trans hrun

/-- The text `int?*[,] table;`. -/
def nullablePointers : MarkedType where
  input := ⟨[], Token.final⟩
  stop := 0
  depth := 6
  baseTokens := [⟨.keyword, "int", ⟨0, 3⟩, ""⟩]
  markTokens := [⟨.punct, "?", ⟨3, 4⟩, ""⟩, ⟨.punct, "*", ⟨4, 5⟩, ""⟩, ⟨.punct, "[", ⟨5, 6⟩, ""⟩,
    ⟨.punct, ",", ⟨6, 7⟩, ""⟩, ⟨.punct, "]", ⟨7, 8⟩, ""⟩]
  base := { span := .none, name := "int" }
  marks := [.nullable, .pointer, .array]
  name := ⟨.ident, "table", ⟨9, 14⟩, ""⟩
  rest := [⟨.punct, ";", ⟨14, 15⟩, ""⟩]
  writes_base := .predefined rfl
  writes_marks := .cons (.nullable rfl) <| .cons (.pointer rfl) <|
    .cons (.array [⟨.punct, ",", ⟨6, 7⟩, ""⟩] rfl (by simp [Token.is]) rfl) .nil
  name_isIdent := rfl
  length_le := by decide

/-- A question mark before an asterisk does no harm. -/
theorem nullablePointers_readAsWritten : nullablePointers.ReadAsWritten :=
  nullablePointers.readAsWritten_iff_noMarkBeforeBracket.mpr <| by
    unfold NoMarkBeforeBracket
    decide

end MarkedType

end CSharpAudit
