import CSharpAudit.Proofs.FinalForm
import CSharpAudit.Proofs.Spelling

/-!
# Overloads

Members of a type are told apart by a text that is put together from names, numbers and the normal
spellings of types. Nothing is lost there: two members have the same text only if they agree in all
that it was made of. So a member is found to repeat another one just if an earlier member agrees
with it in what a type reference keeps. What a type reference does not keep is not told apart, such
as the number of dimensions of an array.

## Main definitions

* `Param.shape` — what of a parameter counts
* `Method.Alike`, `Constructor.Alike` — members that agree in all that counts
* `Rules.Repetition` — what is found of a member in front of which an alike one stands

## Main results

* `TypeRef.MadeOfWords.text_inj` — types can be told from their spellings, wherever these stand
* `Param.signature_inj`, `Rules.methodKey_eq_iff`, `Rules.constructorKey_eq_iff` — so can
  parameters, methods and constructors
* `mem_findings_overload_iff` — what the pass on overloads finds in a parsed file
-/

namespace CSharpAudit

open Grammar (paramModifiers)

open Lexer (isIdentStart isIdentPart)

/-! ### Texts that can be told apart -/

section Cutting

variable {α β : Type} {p : Char → Bool} {a b x y r r' : List Char}

/-- Two texts of some characters agree if other characters follow. -/
theorem append_inj_of_forall (ha : ∀ c ∈ a, p c = true) (hb : ∀ c ∈ b, p c = true)
    (hx : ∀ c ∈ x.head?, p c = false) (hy : ∀ c ∈ y.head?, p c = false) (h : a ++ x = b ++ y) :
    a = b ∧ x = y := by
  -- along the first text; where one ends earlier, its next character is of the wrong kind
  induction a generalizing b with
  | nil =>
    cases b with
    | nil => exact ⟨rfl, h⟩
    | cons c b =>
      have hc := hx c (by rw [show x = c :: (b ++ y) from h]; rfl)
      rw [hb c List.mem_cons_self] at hc
      cases hc
  | cons c a ih =>
    cases b with
    | nil =>
      have hc := hy c (by rw [← show c :: (a ++ x) = y from h]; rfl)
      rw [ha c List.mem_cons_self] at hc
      cases hc
    | cons d b =>
      obtain ⟨rfl, hrest⟩ := List.cons.inj h
      obtain ⟨rfl, rfl⟩ := ih (fun c hc => ha c (List.mem_cons_of_mem _ hc))
        (fun c hc => hb c (List.mem_cons_of_mem _ hc)) hrest
      exact ⟨rfl, rfl⟩

/-- What may stand behind a type in a list: nothing, a comma or a closing bracket. -/
def Closes (r : List Char) : Prop := ∀ c ∈ r.head?, c ∈ [',', '>', ')']

/-- Two lists agree if their items can be told apart wherever a comma or a bracket follows. -/
theorem intercalate_inj {name : α → List Char} {key : α → β} {space : List Char} {as bs : List α}
    (hitem : ∀ a ∈ as, ∀ b ∈ bs, ∀ r r', Closes r → Closes r' → name a ++ r = name b ++ r' →
      key a = key b ∧ r = r')
    (has : as ≠ []) (hbs : bs ≠ []) (hr : Closes r) (hr' : Closes r') (hcomma : ',' ∉ r.head?)
    (hcomma' : ',' ∉ r'.head?)
    (h : (',' :: space).intercalate (as.map name) ++ r =
      (',' :: space).intercalate (bs.map name) ++ r') : as.map key = bs.map key ∧ r = r' := by
  have hcloses (rest : List Char) : Closes (',' :: rest) := by
    rintro _ ⟨⟩
    exact List.mem_cons_self
  induction as generalizing bs with
  | nil => exact absurd rfl has
  | cons a as ih =>
    obtain ⟨b, bs, rfl⟩ := List.exists_cons_of_ne_nil hbs
    obtain ⟨hab, hitem'⟩ := List.forall_mem_cons.mp hitem
    have hhead := hab b List.mem_cons_self
    -- Where only one list goes on, a comma stands where the other text goes on behind the list.
    match as, bs with
    | [], [] =>
      simp only [List.map_cons, List.map_nil, List.intercalate_singleton] at h ⊢
      obtain ⟨hkey, hrest⟩ := hhead r r' hr hr' h
      exact ⟨by rw [hkey], hrest⟩
    | [], b' :: bs =>
      simp only [List.map_cons, List.map_nil, List.intercalate_singleton,
        List.intercalate_cons_cons, List.cons_append, List.append_assoc] at h
      obtain ⟨-, hrest⟩ := hhead _ _ hr (hcloses _) h
      exact absurd (by rw [hrest]; rfl) hcomma
    | a' :: as, [] =>
      simp only [List.map_cons, List.map_nil, List.intercalate_singleton,
        List.intercalate_cons_cons, List.cons_append, List.append_assoc] at h
      obtain ⟨-, hrest⟩ := hhead _ _ (hcloses _) hr' h
      exact absurd (by rw [← hrest]; rfl) hcomma'
    | a' :: as, b' :: bs =>
      rw [List.map_cons, List.map_cons, List.map_cons, List.map_cons, List.intercalate_cons_cons,
        List.intercalate_cons_cons] at h
      simp only [List.cons_append, List.append_assoc] at h
      obtain ⟨hkey, hrest⟩ := hhead _ _ (hcloses _) (hcloses _) h
      have hbehind := List.append_cancel_left (List.cons.inj hrest).2
      obtain ⟨hkeys, hrest⟩ := ih (fun a ha b hb => hitem' a ha b (List.mem_cons_of_mem _ hb))
        (List.cons_ne_nil _ _) (List.cons_ne_nil _ _) hbehind
      exact ⟨congrArg₂ List.cons hkey hkeys, hrest⟩

end Cutting

/-! ### Types -/

namespace TypeRef

variable {t t' : TypeRef} {r r' : List Char}

mutual

/-- A type is spelled without its spans and the element names of tuples. -/
theorem text_plain : ∀ t : TypeRef, t.plain.text = t.text
  | ⟨_, name, args, nullable, rank, pointer, tupleNames⟩ => by
    have hempty : (args.map plain).isEmpty = args.isEmpty := by simp
    rw [plain_mk, text, text, hempty, ← plainList_eq_map, texts_plainList args]

theorem texts_plainList : ∀ ts : List TypeRef, texts (plainList ts) = texts ts
  | [] => rfl
  | t :: ts => by rw [plainList, texts, texts, text_plain t, texts_plainList ts]

end

/-- What ends the part of a type in front of its marks. -/
def EndsBase (r : List Char) : Prop := ∀ c ∈ r.head?, c ∈ ['*', '?', '[', ',', '>', ')']

theorem brackets_inj {n n' : Nat} (hr : Closes r) (hr' : Closes r')
    (h : (String.join (List.replicate n "[]")).toList ++ r =
      (String.join (List.replicate n' "[]")).toList ++ r') : n = n' ∧ r = r' := by
  have hnot {r : List Char} (hr : Closes r) {cs : List Char} (h : r = '[' :: cs) : False := by
    subst h
    exact absurd (hr '[' rfl) (by decide)
  simp only [String.join_eq, String.toList_ofList, List.map_replicate] at h
  induction n generalizing n' with
  | zero =>
    cases n' with
    | zero => exact ⟨rfl, by simpa using h⟩
    | succ n' => exact (hnot hr (by simpa [List.replicate_succ] using h)).elim
  | succ n ih =>
    cases n' with
    | zero => exact (hnot hr' (by simpa [List.replicate_succ] using h.symm)).elim
    | succ n' =>
      obtain ⟨rfl, hrest⟩ := @ih n' (by simpa [List.replicate_succ] using h)
      exact ⟨rfl, hrest⟩

theorem head?_brackets {n : Nat} (hr : Closes r) {c : Char}
    (hc : c ∈ ((String.join (List.replicate n "[]")).toList ++ r).head?) :
    c ∈ ['[', ',', '>', ')'] := by
  simp only [String.join_eq, String.toList_ofList, List.map_replicate] at hc
  cases n with
  | zero => exact List.mem_cons_of_mem _ (hr c (by simpa using hc))
  | succ n =>
    obtain rfl : '[' = c := by simpa [List.replicate_succ] using hc
    exact List.mem_cons_self

theorem toList_optional (b : Bool) (s : String) :
    (if b then s else "").toList = if b then s.toList else [] := by
  cases b <;> rfl

theorem optional_inj {m : Char} {b b' : Bool} {x x' : List Char} (hx : m ∉ x.head?)
    (hx' : m ∉ x'.head?) (h : (if b then [m] else []) ++ x = (if b' then [m] else []) ++ x') :
    b = b' ∧ x = x' := by
  cases b <;> cases b' <;> simp only [Bool.false_eq_true, if_false, if_true, List.nil_append,
    List.cons_append] at h
  · exact ⟨rfl, h⟩
  · exact absurd (by rw [h]; rfl) hx
  · exact absurd (by rw [← h]; rfl) hx'
  · exact ⟨rfl, (List.cons.inj h).2⟩

theorem head?_optional {m : Char} {b : Bool} {x : List Char} {c : Char}
    (hc : c ∈ ((if b then [m] else []) ++ x).head?) : c = m ∨ c ∈ x.head? := by
  cases b with
  | false => exact .inr hc
  | true => exact .inl (Option.some.inj hc).symm

/-- The marks of a type can be told from its spelling. -/
theorem markText_inj {pointer pointer' nullable nullable' : Bool} {rank rank' : Nat}
    (hr : Closes r) (hr' : Closes r') (h : (markText pointer nullable rank).toList ++ r =
      (markText pointer' nullable' rank').toList ++ r') :
    pointer = pointer' ∧ nullable = nullable' ∧ rank = rank' ∧ r = r' := by
  have hstar : "*".toList = ['*'] := rfl
  have hmark : "?".toList = ['?'] := rfl
  simp only [markText, String.toList_append, toList_optional, hstar, hmark,
    List.append_assoc] at h
  have hnot {r : List Char} {n : Nat} (hr : Closes r) {m : Char} (hm : m ∉ ['[', ',', '>', ')']) :
      m ∉ ((String.join (List.replicate n "[]")).toList ++ r).head? :=
    fun hmem => hm (head?_brackets hr hmem)
  have hnot' {r : List Char} {n : Nat} {b : Bool} (hr : Closes r) :
      '*' ∉ ((if b then ['?'] else []) ++
        ((String.join (List.replicate n "[]")).toList ++ r)).head? := fun hmem =>
    (head?_optional hmem).elim (by decide) (hnot hr (by decide))
  obtain ⟨hpointer, h⟩ := optional_inj (hnot' hr) (hnot' hr') h
  obtain ⟨hnullable, h⟩ := optional_inj (hnot hr (by decide)) (hnot hr' (by decide)) h
  exact ⟨hpointer, hnullable, brackets_inj hr hr' h⟩

theorem endsBase_markText (pointer nullable : Bool) (rank : Nat) (hr : Closes r) :
    EndsBase ((markText pointer nullable rank).toList ++ r) := by
  have hstar : "*".toList = ['*'] := rfl
  have hmark : "?".toList = ['?'] := rfl
  intro c hc
  simp only [markText, String.toList_append, toList_optional, hstar, hmark,
    List.append_assoc] at hc
  rcases head?_optional hc with rfl | hc
  · decide
  rcases head?_optional hc with rfl | hc
  · decide
  · exact List.mem_cons_of_mem _ (List.mem_cons_of_mem _ (head?_brackets hr hc))

/-! ### Names -/

/-- A character of a dotted name. -/
def isNameChar (c : Char) : Bool := isIdentPart c || c == '.'

theorem mem_intercalate {sep : String} {ss : List String} {c : Char}
    (hc : c ∈ (sep.intercalate ss).toList) : c ∈ sep.toList ∨ ∃ s ∈ ss, c ∈ s.toList := by
  induction ss with
  | nil => exact absurd hc List.not_mem_nil
  | cons s ss ih =>
    cases ss with
    | nil => exact .inr ⟨s, List.mem_cons_self, by simpa using hc⟩
    | cons s' ss =>
      rw [String.intercalate_cons_cons, String.toList_append, String.toList_append,
        List.mem_append, List.mem_append] at hc
      rcases hc with (hc | hc) | hc
      · exact .inr ⟨s, List.mem_cons_self, hc⟩
      · exact .inl hc
      · exact (ih hc).imp_right fun ⟨s'', hmem, hc⟩ => ⟨s'', List.mem_cons_of_mem _ hmem, hc⟩

theorem isNameChar_of_mem {words : List String} (hwords : ∀ w ∈ words, IsWord w) {c : Char}
    (hc : c ∈ (".".intercalate words).toList) : isNameChar c = true := by
  rcases mem_intercalate hc with hc | ⟨w, hw, hc⟩
  · obtain rfl : c = '.' := by simpa using hc
    exact Bool.or_eq_true_iff.mpr (.inr rfl)
  · exact Bool.or_eq_true_iff.mpr (.inl ((hwords w hw).isIdentPart_of_mem hc))

theorem isNameChar_mark {c : Char} (hc : c ∈ ' ' :: '\x60' :: Lexer.typeMarks) (hpoint : c ≠ '.') :
    isNameChar c = false := by
  rw [isNameChar, Lexer.isIdentPart_mark hc]
  simpa using hpoint

theorem isNameChar_eq_false {r : List Char} {closing : List Char}
    (hclosing : closing.all fun c => Lexer.typeMarks.contains c && c != '.')
    (hr : ∀ c ∈ r.head?, c ∈ closing) : ∀ c ∈ r.head?, isNameChar c = false := fun c hc => by
  obtain ⟨hmark, hpoint⟩ := Bool.and_eq_true_iff.mp (List.all_eq_true.mp hclosing c (hr c hc))
  have hmem : c ∈ Lexer.typeMarks := List.contains_iff_mem.mp hmark
  exact isNameChar_mark (List.mem_cons_of_mem _ (List.mem_cons_of_mem _ hmem))
    (by simpa using hpoint)

theorem tupleName_ne_empty : tupleName ≠ "" := by decide

theorem baseText_tuple (h : t.name = tupleName) :
    t.baseText.toList = '(' :: ((", ".intercalate (t.args.map text)).toList ++ [')']) := by
  rw [baseText, if_pos (by simp [h])]
  simp

/-- Only an omitted type has no spelling; any other begins with a word or with a bracket. -/
theorem MadeOfWords.exists_text (h : t.MadeOfWords) (hname : t.name ≠ "") : ∃ c cs,
    t.text.toList = c :: cs ∧ (isIdentStart c = true ∨ c = '(') ∧
      (t.name = tupleName ↔ c = '(') := by
  rw [text_eq, String.toList_append]
  cases h with
  | omitted => exact absurd rfl hname
  | @named span ws args nullable rank pointer tupleNames hne hwords hargs =>
    have hnot := intercalate_ne_tupleName hwords
    -- A name begins with the first character of its first word.
    obtain ⟨w, hmem, more, hjoined⟩ := exists_intercalate hne
    obtain ⟨c, cs, hw, hc, -⟩ := hwords w hmem
    have hparen : c ≠ '(' := by
      rintro rfl
      exact absurd hc (by decide)
    have hchars : (".".intercalate ws).toList = c :: (cs ++ more.toList) := by
      rw [hjoined, String.toList_append, hw, List.cons_append]
    have hbase : ∃ cs', (baseText ⟨span, ".".intercalate ws, args, nullable, rank, pointer,
        tupleNames⟩).toList = c :: cs' := by
      rw [baseText_named hnot]
      split
      · exact ⟨_, hchars⟩
      · simp only [String.toList_append]
        rw [hchars]
        exact ⟨_, rfl⟩
    obtain ⟨cs', hbase⟩ := hbase
    exact ⟨c, _, by rw [hbase, List.cons_append], .inl hc, iff_of_false hnot hparen⟩
  | @tuple span args nullable rank pointer tupleNames htwo hargs hnames =>
    exact ⟨'(', _, by rw [baseText_tuple rfl, List.cons_append], .inr rfl, iff_of_true rfl rfl⟩

/-- Lists of types in brackets can be told apart if their items can. -/
theorem texts_inj {args args' : List TypeRef} {close close' : Char}
    (hitem : ∀ a ∈ args, ∀ b ∈ args', ∀ r r', Closes r → Closes r' →
      a.text.toList ++ r = b.text.toList ++ r' → a.plain = b.plain ∧ r = r')
    (hne : args ≠ []) (hne' : args' ≠ []) (hclose : close ∈ ['>', ')'])
    (hclose' : close' ∈ ['>', ')'])
    (h : (", ".intercalate (args.map text)).toList ++ close :: r =
      (", ".intercalate (args'.map text)).toList ++ close' :: r') :
    args.map plain = args'.map plain ∧ r = r' := by
  have hcloses {close : Char} (hclose : close ∈ ['>', ')']) (r : List Char) :
      Closes (close :: r) ∧ ',' ∉ (close :: r).head? := by
    refine ⟨?_, ?_⟩
    · rintro _ ⟨⟩
      exact List.mem_cons_of_mem _ hclose
    · rintro ⟨⟩
      exact absurd hclose (by decide)
  have hcomma : ", ".toList = [',', ' '] := rfl
  simp only [String.toList_intercalate, List.map_map, Function.comp_def, hcomma] at h
  obtain ⟨hkeys, hrest⟩ := intercalate_inj hitem hne hne' (hcloses hclose r).1
    (hcloses hclose' r').1 (hcloses hclose r).2 (hcloses hclose' r').2 h
  exact ⟨hkeys, (List.cons.inj hrest).2⟩

/-- A type that is not omitted does not begin as what stands behind one. -/
theorem MadeOfWords.not_closes (h : t.MadeOfWords) (hname : t.name ≠ "") :
    ¬Closes (t.text.toList ++ r) := by
  obtain ⟨c, cs, htext, hc, -⟩ := h.exists_text hname
  rw [htext]
  intro hcloses
  have hmem := hcloses c rfl
  simp only [List.mem_cons, List.not_mem_nil, or_false] at hmem
  rcases hmem with rfl | rfl | rfl <;> exact absurd hc (by decide)

section Items

variable {ws ws' : List String} {args args' : List TypeRef} {x x' : List Char}

theorem toList_named (args : List TypeRef) (name : String) (x : List Char) :
    (if args.isEmpty then name
      else name ++ "<" ++ ", ".intercalate (args.map text) ++ ">").toList ++ x =
    name.toList ++ if args.isEmpty then x
      else '<' :: ((", ".intercalate (args.map text)).toList ++ '>' :: x) := by
  split <;> simp

theorem endsBase_args (hx : EndsBase x) : ∀ c ∈ (if args.isEmpty then x
      else '<' :: ((", ".intercalate (args.map text)).toList ++ '>' :: x)).head?,
    c ∈ ['<', '*', '?', '[', ',', '>', ')'] := by
  split
  · exact fun c hc => List.mem_cons_of_mem _ (hx c hc)
  · rintro _ ⟨⟩
    exact List.mem_cons_self

/-- A name with type arguments can be told from its spelling. -/
theorem named_inj (hwords : ∀ w ∈ ws, IsWord w) (hwords' : ∀ w ∈ ws', IsWord w)
    (hitem : ∀ a ∈ args, ∀ b ∈ args', ∀ r r', Closes r → Closes r' →
      a.text.toList ++ r = b.text.toList ++ r' → a.plain = b.plain ∧ r = r')
    (hx : EndsBase x) (hx' : EndsBase x')
    (h : (if args.isEmpty then ".".intercalate ws
        else ".".intercalate ws ++ "<" ++ ", ".intercalate (args.map text) ++ ">").toList ++ x =
      (if args'.isEmpty then ".".intercalate ws'
        else ".".intercalate ws' ++ "<" ++ ", ".intercalate (args'.map text) ++ ">").toList ++ x') :
    ".".intercalate ws = ".".intercalate ws' ∧ args.map plain = args'.map plain ∧ x = x' := by
  -- What follows a base type opens no type arguments.
  have hnot {x : List Char} (hx : EndsBase x) {cs : List Char} (h : x = '<' :: cs) : False := by
    subst h
    exact absurd (hx '<' rfl) (by decide)
  rw [toList_named, toList_named] at h
  obtain ⟨hname, h⟩ := append_inj_of_forall (fun c => isNameChar_of_mem hwords)
    (fun c => isNameChar_of_mem hwords')
    (isNameChar_eq_false (by decide) (endsBase_args hx))
    (isNameChar_eq_false (by decide) (endsBase_args hx')) h
  refine ⟨String.toList_inj.mp hname, ?_⟩
  match args, args' with
  | [], [] => exact ⟨rfl, h⟩
  | [], a :: as => exact (hnot hx h).elim
  | a :: as, [] => exact (hnot hx' h.symm).elim
  | a :: as, b :: bs =>
    exact texts_inj hitem (List.cons_ne_nil _ _) (List.cons_ne_nil _ _) (by decide) (by decide)
      (List.cons.inj h).2

/-- A tuple can be told from its spelling. -/
theorem tuple_inj (hne : args ≠ []) (hne' : args' ≠ [])
    (hitem : ∀ a ∈ args, ∀ b ∈ args', ∀ r r', Closes r → Closes r' →
      a.text.toList ++ r = b.text.toList ++ r' → a.plain = b.plain ∧ r = r')
    (h : ("(" ++ ", ".intercalate (args.map text) ++ ")").toList ++ x =
      ("(" ++ ", ".intercalate (args'.map text) ++ ")").toList ++ x') :
    args.map plain = args'.map plain ∧ x = x' := by
  have hopen : "(".toList = ['('] := rfl
  have hclose : ")".toList = [')'] := rfl
  simp only [String.toList_append, hopen, hclose, List.append_assoc, List.singleton_append] at h
  exact texts_inj hitem hne hne' (by decide) (by decide) (List.cons.inj h).2

end Items

/-- What stands behind a type is not the spelling of another one with something behind it. -/
theorem MadeOfWords.text_append_ne (h : t.MadeOfWords) (hname : t.name ≠ "") (hr' : Closes r') :
    t.text.toList ++ r ≠ r' :=
  fun heq => h.not_closes hname (heq ▸ hr')

/-- Only tuples are spelled as tuples are. -/
theorem MadeOfWords.tuple_iff (h : t.MadeOfWords) (h' : t'.MadeOfWords) (hname : t.name ≠ "")
    (hname' : t'.name ≠ "") (heq : t.text.toList ++ r = t'.text.toList ++ r') :
    t.name = tupleName ↔ t'.name = tupleName := by
  obtain ⟨c, cs, htext, -, hiff⟩ := h.exists_text hname
  obtain ⟨c', cs', htext', -, hiff'⟩ := h'.exists_text hname'
  rw [htext, htext'] at heq
  rw [hiff, hiff', (List.cons.inj heq).1]

/-- The spelling of a type is cut in front of its marks. -/
theorem toList_text_append (t : TypeRef) (r : List Char) : t.text.toList ++ r =
    t.baseText.toList ++ ((markText t.pointer t.nullable t.rank).toList ++ r) := by
  rw [text_eq, String.toList_append, List.append_assoc]

/-- The spellings of two types agree only if the types do, but for spans and element names of
tuples. -/
theorem MadeOfWords.text_inj (h : t.MadeOfWords) (h' : t'.MadeOfWords) (hr : Closes r)
    (hr' : Closes r') (heq : t.text.toList ++ r = t'.text.toList ++ r') :
    t.plain = t'.plain ∧ r = r' := by
  have hempty : TypeRef.omitted.text.toList = [] := rfl
  -- The second type is of the kind of the first, since each kind begins in its own way.
  induction h generalizing t' r r' with
  | omitted =>
    rw [hempty, List.nil_append] at heq
    by_cases hname' : t'.name = ""
    · obtain rfl := h'.eq_omitted hname'
      rw [hempty, List.nil_append] at heq
      exact ⟨rfl, heq⟩
    · exact absurd heq.symm (h'.text_append_ne hname' hr)
  | @named span ws args nullable rank pointer tupleNames hne hwords hargs ih =>
    have hself : MadeOfWords ⟨span, ".".intercalate ws, args, nullable, rank, pointer, tupleNames⟩ :=
      .named hne hwords hargs
    have hname := intercalate_ne_empty hne hwords
    cases h' with
    | omitted =>
      rw [hempty, List.nil_append] at heq
      exact absurd heq (hself.text_append_ne hname hr')
    | @named span' ws' args' nullable' rank' pointer' tupleNames' hne' hwords' hargs' =>
      rw [toList_text_append, toList_text_append, baseText_named (intercalate_ne_tupleName hwords),
        baseText_named (intercalate_ne_tupleName hwords')] at heq
      obtain ⟨hnames, hplain, hbehind⟩ := named_inj hwords hwords'
        (fun a ha b hb r r' hr hr' h => ih a ha (hargs' b hb) hr hr' h)
        (endsBase_markText _ _ _ hr) (endsBase_markText _ _ _ hr') heq
      obtain ⟨hpointer, hnullable, hrank, hrest⟩ := markText_inj hr hr' hbehind
      dsimp only at hpointer hnullable hrank
      exact ⟨by rw [plain_mk, plain_mk, hnames, hplain, hpointer, hnullable, hrank], hrest⟩
    | @tuple span' args' nullable' rank' pointer' tupleNames' htwo' hargs' hnames' =>
      have hiff := hself.tuple_iff (.tuple htwo' hargs' hnames') hname tupleName_ne_empty heq
      exact absurd (hiff.mpr rfl) (intercalate_ne_tupleName hwords)
  | @tuple span args nullable rank pointer tupleNames htwo hargs hnames ih =>
    have hself : MadeOfWords ⟨span, tupleName, args, nullable, rank, pointer, tupleNames⟩ :=
      .tuple htwo hargs hnames
    cases h' with
    | omitted =>
      rw [hempty, List.nil_append] at heq
      exact absurd heq (hself.text_append_ne tupleName_ne_empty hr')
    | @named span' ws' args' nullable' rank' pointer' tupleNames' hne' hwords' hargs' =>
      have hiff := hself.tuple_iff (.named hne' hwords' hargs') tupleName_ne_empty
        (intercalate_ne_empty hne' hwords') heq
      exact absurd (hiff.mp rfl) (intercalate_ne_tupleName hwords')
    | @tuple span' args' nullable' rank' pointer' tupleNames' htwo' hargs' hnames' =>
      have hlong {as : List TypeRef} (h : 2 ≤ as.length) : as ≠ [] := by
        rintro rfl
        exact absurd h (by decide)
      rw [toList_text_append, toList_text_append] at heq
      obtain ⟨hplain, hbehind⟩ := tuple_inj (hlong htwo) (hlong htwo')
        (fun a ha b hb r r' hr hr' h => ih a ha (hargs' b hb) hr hr' h) heq
      obtain ⟨hpointer, hnullable, hrank, hrest⟩ := markText_inj hr hr' hbehind
      dsimp only at hpointer hnullable hrank
      exact ⟨by rw [plain_mk, plain_mk, hplain, hpointer, hnullable, hrank], hrest⟩

/-- A type begins with a name or a bracket, and no space stands behind that. -/
theorem MadeOfWords.exists_name (h : t.MadeOfWords) (hname : t.name ≠ "") (hr : Closes r) :
    ∃ w x, t.text.toList ++ r = w ++ x ∧ (∀ c ∈ w, isNameChar c = true) ∧
      ∀ c ∈ x.head?, c ∈ ['(', '<', '*', '?', '[', ',', '>', ')'] := by
  rw [toList_text_append]
  cases h with
  | omitted => exact absurd rfl hname
  | @named span ws args nullable rank pointer tupleNames hne hwords hargs =>
    rw [baseText_named (intercalate_ne_tupleName hwords), toList_named]
    exact ⟨_, _, rfl, fun c => isNameChar_of_mem hwords, fun c hc =>
      List.mem_cons_of_mem _ (endsBase_args (endsBase_markText _ _ _ hr) c hc)⟩
  | @tuple span args nullable rank pointer tupleNames htwo hargs hnames =>
    rw [baseText_tuple rfl]
    refine ⟨[], _, rfl, nofun, ?_⟩
    rintro _ ⟨⟩
    exact List.mem_cons_self

/-- The characters that the marks of a type are spelled with. -/
theorem mem_markText {pointer nullable : Bool} {rank : Nat} {c : Char}
    (hc : c ∈ (markText pointer nullable rank).toList) : c ∈ "<>(),[]?* ".toList := by
  have hstar : "*".toList ⊆ "<>(),[]?* ".toList := by decide
  have hmark : "?".toList ⊆ "<>(),[]?* ".toList := by decide
  have hpair : "[]".toList ⊆ "<>(),[]?* ".toList := by decide
  have hpart {b : Bool} {cs : List Char} (h : c ∈ if b then cs else []) : c ∈ cs := by
    split at h
    · exact h
    · cases h
  rw [markText, String.toList_append, String.toList_append, toList_optional, toList_optional,
    List.mem_append, List.mem_append] at hc
  rcases hc with hc | hc | hc
  · exact hstar (hpart hc)
  · exact hmark (hpart hc)
  · simp only [String.join_eq, String.toList_ofList, List.map_replicate, List.mem_flatten,
      List.mem_replicate] at hc
    obtain ⟨_, ⟨-, rfl⟩, hc⟩ := hc
    exact hpair hc

/-- A list of types is spelled with the characters of its types, a comma and a space. -/
theorem mem_texts {args : List TypeRef} {c : Char}
    (ih : ∀ a ∈ args, c ∈ a.text.toList → isNameChar c = true ∨ c ∈ "<>(),[]?* ".toList)
    (hc : c ∈ (", ".intercalate (args.map text)).toList) :
    isNameChar c = true ∨ c ∈ "<>(),[]?* ".toList := by
  rcases mem_intercalate hc with hc | ⟨s, hs, hc⟩
  · have hcomma : ", ".toList ⊆ "<>(),[]?* ".toList := by decide
    exact .inr (hcomma hc)
  · obtain ⟨a, ha, rfl⟩ := List.mem_map.mp hs
    exact ih a ha hc

/-- The characters that a type is spelled with. -/
theorem MadeOfWords.mem_text (h : t.MadeOfWords) {c : Char} (hc : c ∈ t.text.toList) :
    isNameChar c = true ∨ c ∈ "<>(),[]?* ".toList := by
  -- along the type, whose arguments are spelled with such characters already
  induction h with
  | omitted =>
    have hempty : TypeRef.omitted.text.toList = [] := rfl
    rw [hempty] at hc
    cases hc
  | @named span ws args nullable rank pointer tupleNames hne hwords hargs ih =>
    have htext := toList_named args (".".intercalate ws) []
    rw [text_eq, baseText_named (intercalate_ne_tupleName hwords), String.toList_append,
      ← List.append_nil (String.toList _), htext, List.mem_append, List.mem_append] at hc
    rcases hc with (hc | hc) | hc
    · exact .inl (isNameChar_of_mem hwords hc)
    · split at hc
      · cases hc
      · simp only [List.mem_cons, List.mem_append, List.not_mem_nil, or_false] at hc
        rcases hc with rfl | hc | rfl
        · exact .inr (by decide)
        · exact mem_texts ih hc
        · exact .inr (by decide)
    · exact .inr (mem_markText hc)
  | @tuple span args nullable rank pointer tupleNames htwo hargs hnames ih =>
    rw [text_eq, String.toList_append, baseText_tuple rfl] at hc
    simp only [List.mem_cons, List.mem_append, List.not_mem_nil, or_false] at hc
    rcases hc with (rfl | hc | rfl) | hc
    · exact .inr (by decide)
    · exact mem_texts ih hc
    · exact .inr (by decide)
    · exact .inr (mem_markText hc)

end TypeRef

/-! ### Signatures -/

/-- A parameter whose type is made of words, as it is when it was read. -/
structure Param.Worded (p : Param Node) : Prop where
  modifier : p.modifier ∈ "" :: "scoped" :: paramModifiers
  type : ∃ t, p.type = some t ∧ t.erase.MadeOfWords ∧ t.name ≠ ""

/-- What of a parameter counts in a signature. -/
def Param.shape (p : Param Node) : String × Option TypeRef :=
  (p.modifier, p.type.map TypeRef.plain)

/-- How a parameter is written in a signature. -/
def Param.spelled (p : Param Node) : String :=
  let t := (p.type.map TypeRef.text).getD ""
  if p.modifier.isEmpty then t else p.modifier ++ " " ++ t

namespace Param

variable {p q : Param Node} {ps qs : List (Param Node)} {r r' : List Char}

theorem signature_eq (ps : List (Param Node)) : signature ps = ",".intercalate (ps.map spelled) :=
  rfl

theorem isNameChar_of_mem_modifier {m : String} (hm : m ∈ "" :: "scoped" :: paramModifiers)
    {c : Char} (hc : c ∈ m.toList) : TypeRef.isNameChar c = true := by
  have hall : ("" :: "scoped" :: paramModifiers).all fun m =>
      m.toList.all TypeRef.isNameChar := by decide +kernel
  exact List.all_eq_true.mp (List.all_eq_true.mp hall m hm) c hc

/-- A modifier in front of a type can be told from the type. -/
theorem not_modifier {m : String} (hm : m ∈ "" :: "scoped" :: paramModifiers) {t : TypeRef}
    (ht : t.MadeOfWords) (hname : t.name ≠ "") (hr : Closes r) {cs : List Char} :
    m.toList ++ ' ' :: cs ≠ t.text.toList ++ r := by
  obtain ⟨w, x, htext, hw, hx⟩ := ht.exists_name hname hr
  rw [htext]
  intro h
  have hspace : ∀ c ∈ (' ' :: cs).head?, TypeRef.isNameChar c = false := by
    rintro _ ⟨⟩
    exact TypeRef.isNameChar_mark (by decide) (by decide)
  obtain ⟨-, rfl⟩ := append_inj_of_forall (fun c hc => isNameChar_of_mem_modifier hm hc) hw hspace
    (TypeRef.isNameChar_eq_false (by decide) hx) h
  exact absurd (hx ' ' rfl) (by decide)

theorem toList_spelled {t : TypeRef} (ht : p.type = some t) (r : List Char) :
    p.spelled.toList ++ r = if p.modifier = "" then t.erase.text.toList ++ r
      else p.modifier.toList ++ ' ' :: (t.erase.text.toList ++ r) := by
  rw [spelled, ht, TypeRef.text_erase]
  simp only [Option.map_some, Option.getD_some, String.isEmpty_iff]
  split <;> simp

theorem spelled_inj (hp : p.Worded) (hq : q.Worded) (hr : Closes r) (hr' : Closes r')
    (h : p.spelled.toList ++ r = q.spelled.toList ++ r') : p.shape = q.shape ∧ r = r' := by
  obtain ⟨t, ht, hwords, hname⟩ := hp.type
  obtain ⟨u, hu, hwords', hname'⟩ := hq.type
  have htypes {r r' : List Char} (hr : Closes r) (hr' : Closes r')
      (h : t.erase.text.toList ++ r = u.erase.text.toList ++ r') :
      p.type.map TypeRef.plain = q.type.map TypeRef.plain ∧ r = r' := by
    obtain ⟨hplain, hrest⟩ := hwords.text_inj hwords' hr hr' h
    rw [TypeRef.plain_erase, TypeRef.plain_erase] at hplain
    exact ⟨by rw [ht, hu, Option.map_some, Option.map_some, hplain], hrest⟩
  rw [toList_spelled ht, toList_spelled hu] at h
  -- A modifier is told from the first word of a type by the space behind it.
  split at h <;> rename_i hp' <;> split at h <;> rename_i hq'
  · obtain ⟨htype, hrest⟩ := htypes hr hr' h
    exact ⟨Prod.ext (hp'.trans hq'.symm) htype, hrest⟩
  · exact absurd h.symm (not_modifier hq.modifier hwords (by simpa using hname) hr)
  · exact absurd h (not_modifier hp.modifier hwords' (by simpa using hname') hr')
  · have hspace : ∀ cs : List Char, ∀ c ∈ (' ' :: cs).head?, TypeRef.isNameChar c = false := by
      rintro cs _ ⟨⟩
      exact TypeRef.isNameChar_mark (by decide) (by decide)
    obtain ⟨hmodifier, hbehind⟩ := append_inj_of_forall
      (fun c hc => isNameChar_of_mem_modifier hp.modifier hc)
      (fun c hc => isNameChar_of_mem_modifier hq.modifier hc) (hspace _) (hspace _) h
    obtain ⟨htype, hrest⟩ := htypes hr hr' (List.cons.inj hbehind).2
    exact ⟨Prod.ext (String.toList_inj.mp hmodifier) htype, hrest⟩

theorem Worded.spelled_ne_nil (hp : p.Worded) : p.spelled.toList ≠ [] := by
  obtain ⟨t, ht, hwords, hname⟩ := hp.type
  obtain ⟨c, cs, htext, -⟩ := hwords.exists_text (by simpa using hname)
  rw [← List.append_nil (String.toList _), toList_spelled ht, htext]
  split <;> simp

/-- Two signatures agree only if the parameters do, in modifiers and types. -/
theorem signature_inj (hps : ∀ p ∈ ps, p.Worded) (hqs : ∀ q ∈ qs, q.Worded)
    (h : signature ps = signature qs) : ps.map shape = qs.map shape := by
  have hcomma : ",".toList = [','] := rfl
  -- Parameters are spelled with a character at least, so only empty lists have empty signatures.
  have hnonempty {p : Param Node} {ps : List (Param Node)} (hp : p.Worded) :
      (signature (p :: ps)).toList ≠ [] := by
    obtain ⟨more, hmore⟩ : ∃ more, signature (p :: ps) = p.spelled ++ more := by
      rw [signature_eq, List.map_cons]
      cases ps with
      | nil => exact ⟨"", by simp⟩
      | cons q qs => exact ⟨_, by rw [List.map_cons, String.intercalate_cons_cons,
          String.append_assoc]⟩
    rw [hmore, String.toList_append]
    exact fun h => hp.spelled_ne_nil (List.append_eq_nil_iff.mp h).1
  match ps, qs with
  | [], [] => rfl
  | [], q :: qs =>
    exact absurd (congrArg String.toList h).symm (hnonempty (hqs q List.mem_cons_self))
  | p :: ps, [] => exact absurd (congrArg String.toList h) (hnonempty (hps p List.mem_cons_self))
  | p :: ps, q :: qs =>
    have hchars := congrArg String.toList h
    rw [signature_eq, signature_eq, String.toList_intercalate, String.toList_intercalate, hcomma,
      List.map_map, List.map_map, ← List.append_nil (List.intercalate _ _),
      ← List.append_nil (List.intercalate _ (List.map _ (q :: qs)))] at hchars
    have hend : Closes [] := nofun
    have hnone : ',' ∉ ([] : List Char).head? := by decide
    exact (intercalate_inj (fun p hp q hq r r' hr hr' h =>
      spelled_inj (hps p hp) (hqs q hq) hr hr' h) (List.cons_ne_nil _ _) (List.cons_ne_nil _ _)
      hend hend hnone hnone hchars).1

/-- A signature is made of the modifiers and the types, whatever else the parameters have. -/
theorem signature_congr (h : ps.map shape = qs.map shape) : signature ps = signature qs := by
  have hspelled (p : Param Node) : p.spelled =
      let t := (p.shape.2.map TypeRef.text).getD ""
      if p.shape.1.isEmpty then t else p.shape.1 ++ " " ++ t := by
    rw [spelled, shape, Option.map_map]
    simp only [Function.comp_def, TypeRef.text_plain]
  have hmap (ps : List (Param Node)) : ps.map spelled = (ps.map shape).map fun s =>
      let t := (s.2.map TypeRef.text).getD ""
      if s.1.isEmpty then t else s.1 ++ " " ++ t := by
    rw [List.map_map]
    exact List.map_congr_left fun p _ => hspelled p
  rw [signature_eq, signature_eq, hmap, hmap, h]

/-- No signature has a character that stands neither in names nor in types. -/
theorem not_mem_signature {c : Char} (hc : TypeRef.isNameChar c = false)
    (hc' : c ∉ "<>(),[]?* ".toList) (hps : ∀ p ∈ ps, p.Worded) : c ∉ (signature ps).toList := by
  rw [signature_eq]
  intro hmem
  rcases TypeRef.mem_intercalate hmem with hcomma | ⟨s, hs, hmem⟩
  · have hsub : ",".toList ⊆ "<>(),[]?* ".toList := by decide
    exact hc' (hsub hcomma)
  obtain ⟨p, hp, rfl⟩ := List.mem_map.mp hs
  have hworded := hps p hp
  obtain ⟨t, ht, hwords, -⟩ := hworded.type
  have htype : c ∉ t.erase.text.toList := fun hmem =>
    (hwords.mem_text hmem).elim (by simp [hc]) hc'
  rw [← List.append_nil (String.toList _), toList_spelled ht, List.append_nil] at hmem
  split at hmem
  · exact htype hmem
  · rcases List.mem_append.mp hmem with hmem | hmem
    · rw [isNameChar_of_mem_modifier hworded.modifier hmem] at hc
      cases hc
    · rcases List.mem_cons.mp hmem with rfl | hmem
      · exact hc' (by decide)
      · exact htype hmem

end Param

/-! ### Methods and constructors -/

/-- A method whose parameters are made of words, and the interface and the name in front of them
too if there is an interface. -/
structure Method.Worded (m : Method Node) : Prop where
  params : ∀ p ∈ m.params, p.Worded
  name : m.explicitInterface = "" ∨
    (∃ w more, IsWord w ∧ m.explicitInterface = w ++ more) ∧ IsWord m.name

/-- Methods with the same interface, name, number of type parameters, modifiers and types. -/
structure Method.Alike (m m' : Method Node) : Prop where
  explicitInterface : m.explicitInterface = m'.explicitInterface
  name : m.name = m'.name
  typeParams : m.typeParams.length = m'.typeParams.length
  params : m.params.map Param.shape = m'.params.map Param.shape

/-- Constructors that are both static or both not, with the same modifiers and types. -/
structure Constructor.Alike (d d' : Constructor Node) : Prop where
  isStatic : d.modifiers.has .staticMember = d'.modifiers.has .staticMember
  params : d.params.map Param.shape = d'.params.map Param.shape

namespace Rules

variable {m m' : Method Node} {d d' : Constructor Node}

theorem toList_methodKey (m : Method Node) : (methodKey m).toList =
    (m.explicitInterface.toList ++ '.' :: m.name.toList) ++
      '\x60' :: (m.typeParams.length.repr.toList ++
        '(' :: ((signature m.params).toList ++ [')'])) := by
  simp only [methodKey, String.toList_append, List.append_assoc]
  rfl

/-- An interface and a name can be told from both with a point between them. -/
theorem named_inj (hm : m.Worded) (hm' : m'.Worded)
    (h : m.explicitInterface.toList ++ '.' :: m.name.toList =
      m'.explicitInterface.toList ++ '.' :: m'.name.toList) :
    m.explicitInterface = m'.explicitInterface ∧ m.name = m'.name := by
  -- The point between them is the first one, unless the name has no interface.
  have hpoint {w : String} (hw : IsWord w) : '.' ∉ w.toList := fun hmem =>
    Bool.eq_false_iff.mp (Lexer.isIdentPart_mark (by decide)) (hw.isIdentPart_of_mem hmem)
  have hbegins {n : Method Node} {w more : String} (hw : IsWord w)
      (hn : n.explicitInterface = w ++ more) {cs cs' : List Char} :
      '.' :: cs ≠ n.explicitInterface.toList ++ cs' := by
    obtain ⟨c, ds, hchars, hc, -⟩ := hw
    rw [hn, String.toList_append, hchars]
    intro h
    rw [← (List.cons.inj h).1] at hc
    exact absurd hc (by decide)
  rcases hm.name with hnone | ⟨⟨w, more, hw, htext⟩, hname⟩
  · rcases hm'.name with hnone' | ⟨⟨w, more, hw, htext⟩, -⟩
    · rw [hnone, hnone'] at h
      exact ⟨hnone.trans hnone'.symm, String.toList_inj.mp (List.cons.inj h).2⟩
    · rw [hnone] at h
      exact absurd h (hbegins hw htext)
  · rcases hm'.name with hnone' | ⟨-, hname'⟩
    · rw [hnone'] at h
      exact absurd h.symm (hbegins hw htext)
    · obtain ⟨hinterface, hnames⟩ := Text.append_cons_inj (hpoint hname) (hpoint hname') h
      exact ⟨String.toList_inj.mp hinterface, String.toList_inj.mp hnames⟩

/-- The keys of two methods agree only if the methods are alike. -/
theorem alike_of_methodKey_eq (hm : m.Worded) (hm' : m'.Worded) (h : methodKey m = methodKey m') :
    m.Alike m' := by
  have hdigit {n : Nat} : ∀ c ∈ n.repr.toList, c.isDigit = true := fun c hc => by
    rw [Nat.repr, String.toList_ofList] at hc
    exact Nat.isDigit_of_mem_toDigits (by decide) (by decide) hc
  have hbracket (cs : List Char) : ∀ c ∈ ('(' :: cs).head?, c.isDigit = false := by
    rintro _ ⟨⟩
    decide
  -- The backquote is the last one of its kind, so the number of type parameters is behind it.
  have hback {n : Method Node} (hn : n.Worded) : '\x60' ∉ n.typeParams.length.repr.toList ++
      '(' :: ((signature n.params).toList ++ [')']) := by
    have hsignature := Param.not_mem_signature (c := '\x60')
      (TypeRef.isNameChar_mark (by decide) (by decide)) (by decide) hn.params
    simp only [List.mem_append, List.mem_cons, List.not_mem_nil, or_false]
    rintro (hmem | hmem | hmem | hmem)
    · exact absurd (hdigit _ hmem) (by decide)
    · exact absurd hmem (by decide)
    · exact hsignature hmem
    · exact absurd hmem (by decide)
  have hchars := congrArg String.toList h
  rw [toList_methodKey, toList_methodKey] at hchars
  obtain ⟨hnames, hbehind⟩ := Text.append_cons_inj (hback hm) (hback hm') hchars
  obtain ⟨hinterface, hname⟩ := named_inj hm hm' hnames
  obtain ⟨hcount, hsignature⟩ := append_inj_of_forall hdigit hdigit (hbracket _) (hbracket _) hbehind
  have hsame := String.toList_inj.mp (List.append_cancel_right (List.cons.inj hsignature).2)
  exact ⟨hinterface, hname, Nat.repr_inj.mp (String.toList_inj.mp hcount),
    Param.signature_inj hm.params hm'.params hsame⟩

theorem methodKey_eq_iff (hm : m.Worded) (hm' : m'.Worded) :
    methodKey m = methodKey m' ↔ m.Alike m' := by
  refine ⟨alike_of_methodKey_eq hm hm', fun h => ?_⟩
  rw [methodKey, methodKey, h.explicitInterface, h.name, h.typeParams,
    Param.signature_congr h.params]

theorem toList_constructorKey (d : Constructor Node) : (constructorKey d).toList =
    (if d.modifiers.has .staticMember then "static ".toList else []) ++
      ("ctor(".toList ++ ((signature d.params).toList ++ [')'])) := by
  rw [constructorKey]
  simp only [String.toList_append, List.append_assoc, TypeRef.toList_optional]
  rfl

theorem constructorKey_eq_iff (hd : ∀ p ∈ d.params, p.Worded) (hd' : ∀ p ∈ d'.params, p.Worded) :
    constructorKey d = constructorKey d' ↔ d.Alike d' := by
  constructor
  · intro h
    have hchars := congrArg String.toList h
    rw [toList_constructorKey, toList_constructorKey] at hchars
    have hbehind {cs cs' : List Char} (h : "ctor(".toList ++ (cs ++ [')']) =
        "ctor(".toList ++ (cs' ++ [')'])) : cs = cs' :=
      List.append_cancel_right (List.append_cancel_left h)
    -- The word in front tells static constructors from others.
    have hapart {cs cs' : List Char} : "static ".toList ++ cs ≠ "ctor(".toList ++ cs' := fun h =>
      absurd (List.cons.inj h).1 (by decide)
    have hparams {cs : List Char} (h : (signature d.params).toList = cs)
        (hcs : cs = (signature d'.params).toList) : d.params.map Param.shape =
          d'.params.map Param.shape :=
      Param.signature_inj hd hd' (String.toList_inj.mp (h.trans hcs))
    split at hchars <;> rename_i hs <;> split at hchars <;> rename_i hs'
    · exact ⟨hs.trans hs'.symm, hparams (hbehind (List.append_cancel_left hchars)) rfl⟩
    · exact absurd hchars hapart
    · exact absurd hchars.symm hapart
    · rw [Bool.not_eq_true] at hs hs'
      exact ⟨hs.trans hs'.symm, hparams (hbehind hchars) rfl⟩
  · intro h
    rw [constructorKey, constructorKey, h.isStatic, Param.signature_congr h.params]

/-- No method has the key of a constructor. -/
theorem methodKey_ne_constructorKey (hd : ∀ p ∈ d.params, p.Worded) :
    methodKey m ≠ constructorKey d := by
  intro h
  have hmem : '\x60' ∈ (constructorKey d).toList := by
    rw [← h, toList_methodKey]
    exact List.mem_append_right _ List.mem_cons_self
  have hsignature := Param.not_mem_signature (c := '\x60')
    (TypeRef.isNameChar_mark (by decide) (by decide)) (by decide) hd
  rw [toList_constructorKey] at hmem
  simp only [List.mem_append, List.mem_singleton] at hmem
  rcases hmem with hmem | hmem | hmem | hmem
  · split at hmem <;> exact absurd hmem (by decide)
  · exact absurd hmem (by decide)
  · exact hsignature hmem
  · exact absurd hmem (by decide)

end Rules

/-- What is known of the members of a type that was read from words. -/
def Node.Worded : Node → Prop
  | .method m => m.Worded
  | .constructor d => ∀ p ∈ d.params, p.Worded
  | _ => True

/-- Two methods, or two constructors, that are alike. -/
inductive Node.Alike : Node → Node → Prop
  | method {m m' : Method Node} (h : m.Alike m') : Alike (.method m) (.method m')
  | constructor {d d' : Constructor Node} (h : d.Alike d') :
      Alike (.constructor d) (.constructor d')

namespace Rules

/-- Two members have the same key only if they are alike. -/
theorem overloadKey?_eq_iff {n n' : Node} {key : String} (hn : n.Worded) (hn' : n'.Worded)
    (h : overloadKey? n = some key) : overloadKey? n' = some key ↔ n.Alike n' := by
  cases n <;> try cases h
  case constructor d =>
    cases n'
    case constructor d' =>
      rw [overloadKey?, Option.some.injEq, eq_comm, constructorKey_eq_iff hn hn']
      exact ⟨.constructor, fun h => by cases h; assumption⟩
    case method m =>
      rw [overloadKey?, Option.some.injEq]
      exact iff_of_false (methodKey_ne_constructorKey hn) nofun
    all_goals exact iff_of_false nofun nofun
  case method m =>
    cases n'
    case constructor d =>
      rw [overloadKey?, Option.some.injEq, eq_comm]
      exact iff_of_false (methodKey_ne_constructorKey hn') nofun
    case method m' =>
      rw [overloadKey?, Option.some.injEq, eq_comm, methodKey_eq_iff hn hn']
      exact ⟨.method, fun h => by cases h; assumption⟩
    all_goals exact iff_of_false nofun nofun

/-- The repeated elements are those with an earlier one, or a given one, of the same key. -/
theorem mem_repeated_iff {α : Type} {key : α → String} {seen : List String} {xs : List α} {x : α} :
    x ∈ repeated key seen xs ↔ ∃ before after, xs = before ++ x :: after ∧
      (key x ∈ seen ∨ ∃ y ∈ before, key y = key x) := by
  induction xs generalizing seen with
  | nil => simp [repeated]
  | cons z xs ih =>
    -- the first element is in front of all others, or is the one that is asked for
    have hsplit (P : List α → Prop) : (∃ before after, z :: xs = before ++ x :: after ∧ P before) ↔
        z = x ∧ P [] ∨ ∃ before after, xs = before ++ x :: after ∧ P (z :: before) := by
      constructor
      · rintro ⟨before, after, heq, hP⟩
        cases before with
        | nil => exact .inl ⟨(List.cons.inj heq).1, hP⟩
        | cons y before =>
          obtain ⟨rfl, hxs⟩ := List.cons.inj heq
          exact .inr ⟨before, after, hxs, hP⟩
      · rintro (⟨rfl, hP⟩ | ⟨before, after, rfl, hP⟩)
        · exact ⟨[], xs, rfl, hP⟩
        · exact ⟨z :: before, after, rfl, hP⟩
    rw [hsplit, repeated]
    split
    next hseen =>
      have hseen : key z ∈ seen := List.contains_iff_mem.mp hseen
      rw [List.mem_cons, ih]
      refine or_congr ⟨fun h => ⟨h.symm, .inl (h ▸ hseen)⟩, fun h => h.1.symm⟩ ?_
      refine exists_congr fun before => exists_congr fun after => and_congr_right fun _ => ?_
      simp only [List.mem_cons, exists_eq_or_imp]
      exact ⟨fun h => h.imp_right .inr, fun h => h.elim .inl fun h => h.elim
        (fun hkey => .inl (hkey ▸ hseen)) .inr⟩
    next hseen =>
      have hseen : key z ∉ seen := fun h => hseen (List.contains_iff_mem.mpr h)
      rw [ih]
      refine Iff.trans ?_ (or_iff_right ?_).symm
      · refine exists_congr fun before => exists_congr fun after => and_congr_right fun _ => ?_
        simp only [List.mem_cons, exists_eq_or_imp]
        rw [or_assoc, or_left_comm, eq_comm]
      · rintro ⟨rfl, h | ⟨y, hy, -⟩⟩
        · exact hseen h
        · cases hy

/-- A member in front of which an alike one stands. -/
def IsRepeated (members : List Node) (n : Node) : Prop :=
  ∃ before after m, members = before ++ n :: after ∧ m ∈ before ∧ m.Alike n

/-- What is found of a member in front of which an alike one stands. -/
inductive Repetition (s : Session) (t : TypeDecl Node) : Diagnostic → Prop
  | method {m : Method Node} (h : IsRepeated t.members (.method m)) :
      Repetition s t (s.finding .duplicateMethod m.nameSpan
        s!"Type '{t.name}' already declares '{m.name}({signature m.params})'")
  | constructor {d : Constructor Node} (h : IsRepeated t.members (.constructor d)) :
      Repetition s t (s.finding .duplicateConstructor d.nameSpan
        s!"Type '{t.name}' already declares a constructor with parameters ({signature d.params})")

/-- Of the members with a key, those are repeated that an alike member stands in front of. -/
theorem mem_repeated_overloadKey_iff {members : List Node} (hworded : ∀ n ∈ members, n.Worded)
    {n : Node} : n ∈ repeated (fun n => (overloadKey? n).getD "") []
      (members.filter fun n => (overloadKey? n).isSome) ↔ IsRepeated members n := by
  -- Keys stand for members of the same kind, so equal keys mean alike members.
  have halike {m : Node} (hm : m ∈ members) (hn : n ∈ members) : m.Alike n ↔
      (overloadKey? m).isSome = true ∧ (overloadKey? n).isSome = true ∧
        (overloadKey? m).getD "" = (overloadKey? n).getD "" := by
    cases hkey : overloadKey? m with
    | none =>
      refine iff_of_false (fun h => ?_) nofun
      cases h <;> cases hkey
    | some key =>
      rw [← overloadKey?_eq_iff (hworded m hm) (hworded n hn) hkey]
      cases overloadKey? n <;> simp [eq_comm]
  rw [mem_repeated_iff]
  constructor
  · rintro ⟨before, after, heq, h | ⟨m, hm, hkey⟩⟩
    · cases h
    -- The earlier member with this key stands in front of it among all members as well.
    obtain ⟨front, back, rfl, rfl, hback⟩ := List.filter_eq_append_iff.mp heq
    obtain ⟨between, behind, rfl, -, hn, -⟩ := List.filter_eq_cons_iff.mp hback
    obtain ⟨hm, hm'⟩ := List.mem_filter.mp hm
    refine ⟨front ++ between, behind, m, by simp, List.mem_append_left _ hm, ?_⟩
    exact (halike (by simp [hm]) (by simp)).mpr ⟨hm', hn, hkey⟩
  · rintro ⟨before, after, m, rfl, hm, h⟩
    obtain ⟨hm', hn, hkey⟩ := (halike (by simp [hm]) (by simp)).mp h
    refine ⟨before.filter fun n => (overloadKey? n).isSome,
      after.filter fun n => (overloadKey? n).isSome, ?_,
      .inr ⟨m, List.mem_filter.mpr ⟨hm, hm'⟩, hkey⟩⟩
    rw [List.filter_append, List.filter_cons, if_pos hn]

/-- In a type whose members are made of words, those are found that an alike member stands in front
of. -/
theorem mem_overloads_iff {s : Session} {t : TypeDecl Node} {d : Diagnostic}
    (hworded : ∀ n ∈ t.members, n.Worded) : d ∈ overloads s t ↔ Repetition s t d := by
  rw [overloads, List.mem_flatMap]
  simp only [mem_repeated_overloadKey_iff hworded]
  constructor
  · rintro ⟨n, hn, hd⟩
    split at hd
    · obtain rfl := List.mem_singleton.mp hd
      exact .constructor hn
    · obtain rfl := List.mem_singleton.mp hd
      exact .method hn
    · cases hd
  · rintro (h | h)
    · exact ⟨_, h, List.mem_singleton_self _⟩
    · exact ⟨_, h, List.mem_singleton_self _⟩

end Rules

/-! ### Members of a parsed file -/

namespace Node

/-- What is reached in a tree goes on to the children of the nodes that are gone through. -/
theorem mem_reached_of_mem_children {through : Node → Bool} {n m c : Node}
    (hm : m ∈ n.reached through) (hthrough : through m = true) (hc : c ∈ m.children) :
    c ∈ n.reached through := by
  have hself (n : Node) : n ∈ n.reached through := by
    rw [reached_eq]
    exact List.mem_cons_self
  induction n using induction_on_children with
  | step n ih =>
    rw [reached_eq] at hm ⊢
    rcases List.mem_cons.mp hm with rfl | hm
    · rw [if_pos hthrough]
      exact List.mem_cons_of_mem _ (List.mem_flatMap.mpr ⟨c, hc, hself c⟩)
    · split at hm
      next hn =>
        obtain ⟨b, hb, hm⟩ := List.mem_flatMap.mp hm
        rw [if_pos hn]
        exact List.mem_cons_of_mem _ (List.mem_flatMap.mpr ⟨b, hb, ih b hb hm⟩)
      · cases hm

/-- A declaration that was read from tokens is made of words if their identifiers are words. -/
theorem ReadFrom.worded {tokens : List Token} {n : Node} (h : n.ReadFrom tokens)
    (hwords : ∀ i ∈ tokens, i.isIdent = true → IsWord i.text) : n.Worded := by
  have hparam {p : Param Node} (hp : p.ReadFrom tokens) : p.Worded := by
    obtain ⟨t, ts, ht, hts, hwrites⟩ := hp.type
    obtain ⟨hmade, hname⟩ := hwrites.madeOfWords fun i hi => hwords i (hts.subset hi)
    exact ⟨hp.modifier, t, ht, hmade, by simpa using hname⟩
  cases n
  case method m =>
    refine ⟨fun p hp => hparam (h.1 p hp), h.2.1.imp_right ?_⟩
    rintro ⟨⟨i, hi, hident, more, htext⟩, j, hj, hident', hname⟩
    exact ⟨⟨i.text, more, hwords i hi hident, htext⟩, hname ▸ hwords j hj hident'⟩
  case constructor d => exact fun p hp => hparam (h.1 p hp)
  all_goals trivial

end Node

section Report

variable {source : List UInt8} {u : CompilationUnit Node} {s : Session}

/-- The members of the types of a parsed file are made of words. -/
theorem worded_of_parse (hparse : parse source = .ok u) {t : TypeDecl Node} (ht : t ∈ u.types)
    {n : Node} (hn : n ∈ t.members) : n.Worded := by
  obtain ⟨tokens, nullable, hlex, hread⟩ := readFrom_of_parse hparse
  -- All that is reached through types and namespaces is a declaration, and was read from tokens.
  have hnode {n : Node} (hn : n ∈ (Node.unit u).reached Node.holdsDeclarations)
      (hdecl : n.isDeclaration = true) : n.ReadFrom tokens.dropLast := by
    have hmem := List.mem_filter.mpr ⟨hn, hdecl⟩
    rw [← CompilationUnit.map_node_declarations] at hmem
    obtain ⟨d, hd, rfl⟩ := List.mem_map.mp hmem
    exact hread d hd
  obtain ⟨d, hd, htype⟩ := List.mem_filterMap.mp ht
  have hreached : Node.typeDecl t ∈ (Node.unit u).reached Node.holdsDeclarations := by
    have hmem := List.mem_map_of_mem (f := (·.node)) hd
    rw [CompilationUnit.map_node_declarations] at hmem
    split at htype
    next t' hnode =>
      obtain rfl := Option.some.inj htype
      rw [← hnode]
      exact List.mem_of_mem_filter hmem
    · cases htype
  have hmember := (hnode hreached rfl).1 n hn
  refine (hnode (Node.mem_reached_of_mem_children hreached rfl ?_) hmember).worded fun i hi =>
    Lexer.isWord_of_lex hlex (List.mem_of_mem_dropLast hi)
  exact List.mem_append_right _ hn

theorem findings_overload (u : CompilationUnit Node) (s : Session) :
    Passes.overload.findings u s = u.types.flatMap (Rules.overloads s) :=
  Entry.findings_of_report rfl rfl

/-- The pass on overloads finds, in the types of a parsed file, the methods and constructors in
front of which an alike one stands. -/
theorem mem_findings_overload_iff (hparse : parse source = .ok u) (s : Session) (d : Diagnostic) :
    d ∈ Passes.overload.findings u s ↔ ∃ t ∈ u.types, Rules.Repetition s t d := by
  rw [findings_overload, List.mem_flatMap]
  exact exists_congr fun t => and_congr_right fun ht =>
    Rules.mem_overloads_iff fun n hn => worded_of_parse hparse ht hn

/-- What the pass on overloads finds in a text, but for the places. -/
def overloadsOfText (text : List UInt8) : Option (List (Code × String)) :=
  (parse text).toOption.map fun u =>
    (Passes.overload.findings u { document := ⟨"A.cs", text⟩ }).map fun d => (d.code, d.message)

/-- What is found of overloads depends on the session only in the places. -/
theorem map_findings_overload (u : CompilationUnit Node) (s s' : Session) :
    (Passes.overload.findings u s).map (fun d => (d.code, d.message)) =
      (Passes.overload.findings u s').map fun d => (d.code, d.message) := by
  rw [findings_overload, findings_overload, List.map_flatMap, List.map_flatMap]
  refine List.flatMap_congr fun t _ => ?_
  rw [Rules.overloads, Rules.overloads, List.map_flatMap, List.map_flatMap]
  refine List.flatMap_congr fun n _ => ?_
  cases n <;> rfl

/-- What the pass on overloads finds in a text is reported. -/
theorem exists_of_overloadsOfText {text : List UInt8} {found : List (Code × String)}
    {c : Code × String} (h : overloadsOfText text = some found) (hc : c ∈ found) :
    ∃ u s d, parse text = .ok u ∧ analyze {} (fun _ => none) ⟨"A.cs", text⟩ = .ok s ∧
      d ∈ s.toReport.diagnostics ∧ d.code = c.1 ∧ d.message = c.2 := by
  obtain ⟨u, hparse, rfl⟩ := exists_parse_of_map h
  have hanalyze := analyze_of_parse {} (fun _ => none) ⟨"A.cs", text⟩ hparse
  obtain ⟨t, ht⟩ : ∃ t, Session.emitted u { document := ⟨"A.cs", text⟩ } Passes.overload =
      Passes.overload.findings u t := by
    have henabled : Entry.isEnabled {} Passes.overload = true := rfl
    have hall : Entry.all = Entry.all.take 11 ++ Passes.overload :: Entry.all.drop 12 := rfl
    exact ⟨_, (Session.emitted_eq_findings hall).trans (if_pos henabled)⟩
  have hmem : Passes.overload ∈ Entry.all := by simp [Entry.all]
  rw [map_findings_overload u _ t, ← ht] at hc
  obtain ⟨f, hf, rfl⟩ := List.mem_map.mp hc
  -- The pass emits its own codes only, none of which is off by default.
  have hcodes : f.content.1 ∈ Passes.overload.codes :=
    Entry.emits_findings hmem u t f (ht ▸ hf)
  have hon : ({} : Settings).severity? f.content.1 ≠ some .off := (Option.some_ne_none _).symm
  obtain ⟨d, hd, hsame⟩ := List.mem_map.mp (content_mem_report_of_emitted hparse hanalyze
    hmem hcodes hon (List.mem_map_of_mem hf))
  obtain ⟨hcode, -, hmessage⟩ : d.code = f.code ∧ d.location = f.location ∧
    d.message = f.message := by simpa [Diagnostic.content] using hsame
  exact ⟨u, _, d, hparse, hanalyze, hd, hcode, hmessage⟩

/-- Two constructors with parameters of the same type, and so two methods. -/
def repeatedText : List UInt8 :=
  "class C\x7bC(int a)\x7b\x7dC(int b)\x7b\x7dvoid M(int a)\x7b\x7dvoid M(int b)\x7b\x7d\x7d".toList.map
    Lexer.ascii

theorem overloads_repeatedText : overloadsOfText repeatedText = some [
    (.duplicateConstructor, "Type 'C' already declares a constructor with parameters (int)"),
    (.duplicateMethod, "Type 'C' already declares 'M(int)'")] := by
  rw [show repeatedText = _ from Lexer.ascii_ofList _]
  decide +kernel

/-- Both are found, and each repeats another one. -/
theorem repetitions_repeatedText : ∃ u, parse repeatedText = .ok u ∧
    ∀ s, ∀ code ∈ [Code.duplicateConstructor, .duplicateMethod],
      ∃ d : Diagnostic, d.code = code ∧ ∃ t ∈ u.types, Rules.Repetition s t d := by
  obtain ⟨u, hparse, hfound⟩ := exists_parse_of_map overloads_repeatedText
  refine ⟨u, hparse, fun s code hcode => ?_⟩
  have hmap := (map_findings_overload u s _).trans hfound
  have hmem : code ∈ (Passes.overload.findings u s).map (·.code) := by
    have hcodes := congrArg (List.map Prod.fst) hmap
    rw [List.map_map] at hcodes
    exact hcodes ▸ hcode
  obtain ⟨d, hd, rfl⟩ := List.mem_map.mp hmem
  exact ⟨d, rfl, (mem_findings_overload_iff hparse s d).mp hd⟩

/-- The written types of the parameters of a declaration, as the texts of their tokens. -/
def Node.writtenParams (tokens : List Token) (n : Node) : List (List String) :=
  n.params.map fun p => p.type.toList.flatMap fun t =>
    (tokens.filter fun i => t.span.start ≤ i.span.start && i.span.stop ≤ t.span.stop).map (·.text)

/-- Methods that differ in the dimensions of an array. -/
def dimensionsText : List UInt8 :=
  "class C\x7bvoid M(int[]a)\x7b\x7dvoid M(int[,]a)\x7b\x7d\x7d".toList.map Lexer.ascii

theorem dimensionsText_overloads : overloadsOfText dimensionsText =
      some [(.duplicateMethod, "Type 'C' already declares 'M(int[])'")] ∧
    ((parse dimensionsText).toOption.map fun u => u.types.map fun t => t.members.map fun n =>
      (n.declaredName, n.writtenParams (lexed dimensionsText).1)) =
      some [[("M", [["int", "[", "]"]]), ("M", [["int", "[", ",", "]"]])]] := by
  rw [show dimensionsText = _ from Lexer.ascii_ofList _]
  decide +kernel

/-- A method is taken for a repetition of another one, though no two members of any type have the
same parameter types as they are written. -/
theorem dimensions_not_told_apart : ∃ u s d, parse dimensionsText = .ok u ∧
    analyze {} (fun _ => none) ⟨"A.cs", dimensionsText⟩ = .ok s ∧ d ∈ s.toReport.diagnostics ∧
      d.code = .duplicateMethod ∧ d.message = "Type 'C' already declares 'M(int[])'" ∧
        (u.types.map fun t => t.members.map fun n =>
          (n.declaredName, n.writtenParams (lexed dimensionsText).1)) =
            [[("M", [["int", "[", "]"]]), ("M", [["int", "[", ",", "]"]])]] := by
  obtain ⟨hfound, hparams⟩ := dimensionsText_overloads
  obtain ⟨u, s, d, hparse, hanalyze, hd, hcode, hmessage⟩ :=
    exists_of_overloadsOfText hfound List.mem_cons_self
  rw [hparse] at hparams
  exact ⟨u, s, d, hparse, hanalyze, hd, hcode, hmessage, Option.some.inj hparams⟩

end Report

end CSharpAudit
