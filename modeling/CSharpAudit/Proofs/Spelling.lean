import CSharpAudit.Proofs.Grammar.Listing
import CSharpAudit.Proofs.Words

/-!
# The spelling of types

A type that was read from a text consists of words and marks. Its normal spelling is read as the
same type again, unless a word in it is reserved or a question mark comes to stand before a bracket:
normal spelling puts the question mark in front of all brackets, where it is left to the expression
grammar.

## Main definitions

* `TypeRef.plain` — a type without spans and element names of tuples
* `TypeRef.MadeOfWords` — a type whose names consist of words
* `TypeRef.Within` — a type inside another one, at any depth
* `TypeRef.Rereadable` — a type in whose spelling all words and marks are read as such
* `TypeRef.IsRead` — a type that was read from some text

## Main results

* `WritesType.madeOfWords` — a type that was read from the tokens of a text is made of words
* `TypeRef.IsRead.text_reread` — the normal spelling of a type is read as that type
-/

namespace CSharpAudit

open Grammar

namespace TypeRef

mutual

/-- A type without spans and element names of tuples. -/
def plain : TypeRef → TypeRef
  | ⟨_, name, args, nullable, rank, pointer, _⟩ =>
    ⟨.none, name, plainList args, nullable, rank, pointer, []⟩

def plainList : List TypeRef → List TypeRef
  | [] => []
  | t :: ts => plain t :: plainList ts

end

theorem plainList_eq_map (ts : List TypeRef) : plainList ts = ts.map plain := by
  induction ts with
  | nil => rfl
  | cons t ts ih => rw [plainList, ih, List.map_cons]

/-- A plain type keeps names, arguments and marks. -/
theorem plain_mk (span : Span) (name : String) (args : List TypeRef) (nullable : Bool) (rank : Nat)
    (pointer : Bool) (tupleNames : List String) :
    plain ⟨span, name, args, nullable, rank, pointer, tupleNames⟩ =
      ⟨.none, name, args.map plain, nullable, rank, pointer, []⟩ := by
  rw [plain, plainList_eq_map]

mutual

/-- A plain type has no spans to erase. -/
@[simp] theorem plain_erase : ∀ t : TypeRef, t.erase.plain = t.plain
  | ⟨span, name, args, nullable, rank, pointer, tupleNames⟩ => by
    rw [erase, plain, plain, plainList_eraseList args]

theorem plainList_eraseList : ∀ ts : List TypeRef, plainList (eraseList ts) = plainList ts
  | [] => rfl
  | t :: ts => by rw [eraseList, plainList, plainList, plain_erase t, plainList_eraseList ts]

end

/-- A type whose names consist of words, or an omitted one. -/
inductive MadeOfWords : TypeRef → Prop
  | omitted : MadeOfWords .omitted
  | named {span : Span} {words : List String} {args : List TypeRef} {nullable : Bool} {rank : Nat}
    {pointer : Bool} {tupleNames : List String} (hne : words ≠ []) (hwords : ∀ w ∈ words, IsWord w)
    (hargs : ∀ a ∈ args, MadeOfWords a) :
    MadeOfWords ⟨span, ".".intercalate words, args, nullable, rank, pointer, tupleNames⟩
  | tuple {span : Span} {args : List TypeRef} {nullable : Bool} {rank : Nat} {pointer : Bool}
    {tupleNames : List String} (htwo : 2 ≤ args.length) (hargs : ∀ a ∈ args, MadeOfWords a)
    (hnames : ∀ a ∈ args, a.name ≠ "") :
    MadeOfWords ⟨span, tupleName, args, nullable, rank, pointer, tupleNames⟩

end TypeRef

/-! ### Words in written types -/

section Written

variable {α : Type} {W : List Token → α → Prop} {P : α → Prop} {ts : List Token}

/-- What holds of all items that are written within some tokens holds of a list of them. -/
theorem SeparatedBy.forall_mem {as : List α} (h : SeparatedBy W ts as)
    (hitem : ∀ us a, us <:+: ts → W us a → P a) : ∀ a ∈ as, P a := by
  induction h with
  | one h => exact List.forall_mem_singleton.mpr (hitem _ _ (List.infix_refl _) h)
  | @cons ts us comma a as h _ _ ih =>
    refine List.forall_mem_cons.mpr ⟨hitem ts a ⟨[], comma :: us, by simp⟩ h, ih ?_⟩
    exact fun vs b hvs => hitem vs b (hvs.trans ⟨ts ++ [comma], [], by simp⟩)

variable {W : List Token → TypeRef → Prop} {P : TypeRef → Prop}

/-- What holds of each written argument holds of the list. -/
theorem WritesArgs.forall_mem {before args : List TypeRef} (h : WritesArgs W before ts args)
    (hbefore : ∀ a ∈ before, P a)
    (hitem : ∀ us a, us <:+: ts → us.length < ts.length → WritesArg W us a → P a) :
    ∀ a ∈ args, P a := by
  cases h with
  | none => exact hbefore
  | @some o c ts before args ho h hc =>
    refine h.forall_mem fun us a hus => hitem us a (hus.trans ⟨[o], [c], by simp⟩) ?_
    have := hus.length_le
    simp only [List.length_cons, List.length_append]
    omega

theorem WritesSegments.forall_mem {args args' : List TypeRef} {names : List String}
    (h : WritesSegments W args ts names args') (hargs : ∀ a ∈ args, P a)
    (hitem : ∀ us a, us <:+: ts → us.length < ts.length → WritesArg W us a → P a) :
    ∀ a ∈ args', P a := by
  induction h with
  | nil => exact hargs
  | @cons point i us ts args args' args'' names _ _ hus _ ih =>
    refine ih (hus.forall_mem hargs fun vs a hvs hlt => hitem vs a ?_ ?_)
      fun vs a hvs hlt => hitem vs a ?_ ?_
    · exact hvs.trans ⟨[point, i], ts, by simp⟩
    · simp only [List.length_cons, List.length_append]
      omega
    · exact hvs.trans ⟨point :: i :: us, [], by simp⟩
    · simp only [List.length_cons, List.length_append]
      omega

/-- The segments of a name are words. -/
theorem WritesSegments.isWord {args args' : List TypeRef} {names : List String}
    (h : WritesSegments W args ts names args')
    (hwords : ∀ i ∈ ts, i.isIdent = true → IsWord i.text) : ∀ w ∈ names, IsWord w := by
  induction h with
  | nil => exact nofun
  | @cons point i us ts args args' args'' names _ hi _ _ ih =>
    exact List.forall_mem_cons.mpr ⟨hwords i (by simp) hi, ih fun j hj => hwords j (by simp [hj])⟩

/-- So is the first one, whatever alias stands in front of it. -/
theorem WritesFirst.isWord {first : String} (h : WritesFirst ts first)
    (hwords : ∀ i ∈ ts, i.isIdent = true → IsWord i.text) : IsWord first := by
  cases h with
  | plain hi => exact hwords _ (by simp) hi
  | qualified _ _ hj => exact hwords _ (by simp) hj

/-- Predefined types are words. -/
theorem isWord_of_mem_predefinedTypes {w : String} (h : w ∈ predefinedTypes) : IsWord w := by
  have hall : predefinedTypes.all fun w =>
      w.toList.head?.any Lexer.isIdentStart && w.toList.tail.all Lexer.isIdentPart := by decide
  have hw := List.all_eq_true.mp hall w h
  rw [Bool.and_eq_true, List.all_eq_true] at hw
  obtain ⟨hhead, htail⟩ := hw
  cases hchars : w.toList with
  | nil => simp [hchars] at hhead
  | cons c cs => exact ⟨c, cs, hchars, by simpa [hchars] using hhead, by simpa [hchars] using htail⟩

theorem ne_empty_of_isWord {w : String} (h : IsWord w) : w ≠ "" := by
  rintro rfl
  obtain ⟨c, cs, hw, -⟩ := h
  cases hw

end Written

namespace TypeRef

/-- A dotted name begins with its first word. -/
theorem exists_intercalate {words : List String} (hne : words ≠ []) :
    ∃ w ∈ words, ∃ more, ".".intercalate words = w ++ more := by
  obtain ⟨w, ws, rfl⟩ := List.exists_cons_of_ne_nil hne
  refine ⟨w, List.mem_cons_self, ?_⟩
  cases ws with
  | nil => exact ⟨"", by simp⟩
  | cons w' ws => exact ⟨"." ++ ".".intercalate (w' :: ws), by
      rw [String.intercalate_cons_cons, String.append_assoc]⟩

theorem intercalate_ne_empty {words : List String} (hne : words ≠ [])
    (hwords : ∀ w ∈ words, IsWord w) : ".".intercalate words ≠ "" := by
  obtain ⟨w, hmem, more, hname⟩ := exists_intercalate hne
  intro h
  rw [hname, String.append_eq_empty_iff] at h
  exact ne_empty_of_isWord (hwords w hmem) h.1

/-- The name of a tuple type consists of no words. -/
theorem intercalate_ne_tupleName {words : List String} (hwords : ∀ w ∈ words, IsWord w) :
    ".".intercalate words ≠ tupleName := by
  intro h
  have hne : words ≠ [] := by
    rintro rfl
    exact absurd h (by decide)
  obtain ⟨w, hmem, more, hname⟩ := exists_intercalate hne
  obtain ⟨c, cs, hw, hc, -⟩ := hwords w hmem
  have hchars := congrArg String.toList (hname.symm.trans h)
  rw [String.toList_append, hw] at hchars
  have hparen : c = '(' := (List.cons.inj hchars).1
  rw [hparen] at hc
  exact absurd hc (by decide)

variable {t : TypeRef}

@[simp] theorem name_on (m : TypeMark) (t : TypeRef) : (m.on t).name = t.name := by cases m <;> rfl

/-- A mark brings in no words. -/
theorem MadeOfWords.on (h : t.MadeOfWords) (hne : t.name ≠ "") (m : TypeMark) :
    (m.on t).MadeOfWords := by
  cases h with
  | omitted => exact absurd rfl hne
  | named hwordsNe hwords hargs => cases m <;> exact .named hwordsNe hwords hargs
  | tuple htwo hargs hnames => cases m <;> exact .tuple htwo hargs hnames

theorem MadeOfWords.foldl_on (h : t.MadeOfWords) (hne : t.name ≠ "") (ms : List TypeMark) :
    (ms.foldl TypeMark.on t).MadeOfWords ∧ (ms.foldl TypeMark.on t).name ≠ "" := by
  induction ms generalizing t with
  | nil => exact ⟨h, hne⟩
  | cons m ms ih => exact ih (h.on hne m) (by rwa [name_on])

end TypeRef

/-- A type without marks is made of words if those inside it are. -/
theorem WritesUnmarked.madeOfWords {ts : List Token} {t : TypeRef}
    (h : WritesUnmarked WritesType ts t) (hwords : ∀ i ∈ ts, i.isIdent = true → IsWord i.text)
    (hinner : ∀ us u, us <:+: ts → us.length < ts.length → WritesType us u →
      u.MadeOfWords ∧ u.name ≠ "") : t.MadeOfWords ∧ t.name ≠ "" := by
  -- An argument may be left out; any other is a type inside this one.
  have harg {us : List Token} {u : TypeRef} (hus : us <:+: ts) (hlt : us.length < ts.length)
      (h : WritesArg WritesType us u) : u.MadeOfWords := by
    cases h with
    | omitted => exact .omitted
    | type h => exact (hinner us u hus hlt h).1
  cases h with
  | @predefined i hi =>
    have hmem : i.text ∈ predefinedTypes := by
      simpa using (Bool.and_eq_true_iff.mp hi).2
    have hword := List.forall_mem_singleton.mpr (isWord_of_mem_predefinedTypes hmem)
    exact ⟨.named (List.cons_ne_nil i.text []) hword nofun,
      ne_empty_of_isWord (hword _ List.mem_cons_self)⟩
  | @named fs us ts first names args args' hfs hus hts =>
    have hnames : ∀ w ∈ first :: names, IsWord w := List.forall_mem_cons.mpr
      ⟨hfs.isWord fun i hi => hwords i (by simp [hi]),
        hts.isWord fun i hi => hwords i (by simp [hi])⟩
    -- The first segment takes up a token at least, so that the arguments are shorter than the type.
    have hfirst : 0 < fs.length := by
      obtain ⟨i, is, rfl, -⟩ := hfs.exists_cons
      exact Nat.succ_pos _
    have hargs := hus.forall_mem (P := TypeRef.MadeOfWords) nofun fun vs a hvs hlt h =>
      harg (hvs.trans ⟨fs, ts, by simp⟩) (by simp only [List.length_append]; omega) h
    have hargs' := hts.forall_mem hargs fun vs a hvs hlt h =>
      harg (hvs.trans ⟨fs ++ us, [], by simp⟩) (by simp only [List.length_append]; omega) h
    exact ⟨.named (List.cons_ne_nil first names) hnames hargs',
      TypeRef.intercalate_ne_empty (List.cons_ne_nil first names) hnames⟩
  | @tuple o c ts elements ho h htwo hc =>
    have helement := h.forall_mem (P := fun a => a.1.MadeOfWords ∧ a.1.name ≠ "")
      fun us a hus ha => by
        have hlen := hus.length_le
        have hus : us <:+: o :: (ts ++ [c]) := hus.trans ⟨[o], [c], by simp⟩
        cases ha with
        | unnamed ha =>
          exact hinner _ _ hus (by simp only [List.length_cons, List.length_append]; omega) ha
        | @named us t i ha hi =>
          rw [List.length_append] at hlen
          refine hinner us t (List.IsInfix.trans ⟨[], [i], by simp⟩ hus) ?_ ha
          simp only [List.length_cons, List.length_append]
          omega
    have hname : TypeRef.tupleName ≠ "" := by decide
    exact ⟨.tuple (by simpa using htwo) (List.forall_mem_map.mpr fun a ha => (helement a ha).1)
      (List.forall_mem_map.mpr fun a ha => (helement a ha).2), hname⟩

/-- A type that was read from tokens is made of words if their identifiers are words. -/
theorem WritesType.madeOfWords {ts : List Token} {t : TypeRef} (h : WritesType ts t)
    (hwords : ∀ i ∈ ts, i.isIdent = true → IsWord i.text) : t.MadeOfWords ∧ t.name ≠ "" := by
  obtain ⟨n, hn⟩ : ∃ n, ts.length < n := ⟨_, Nat.lt_succ_self _⟩
  induction n generalizing ts t with
  | zero => exact absurd hn (Nat.not_lt_zero _)
  | succ n ih =>
    cases h with
    | @mk us ts t ms hus hts =>
      rw [List.length_append] at hn
      obtain ⟨hbase, hne⟩ := hus.madeOfWords (fun i hi => hwords i (by simp [hi]))
        fun vs u hvs hlt hu => ih hu (fun i hi => hwords i (by simp [hvs.subset hi])) (by omega)
      exact hbase.foldl_on hne ms

/-! ### Types that can be read again -/

namespace TypeRef

/-- A type inside another one, at any depth. -/
inductive Within (r : TypeRef) : TypeRef → Prop
  | self : Within r r
  | arg {a t : TypeRef} (ha : a ∈ t.args) (h : Within r a) : Within r t

/-- No segment of the name is a reserved word, unless the type is a predefined one by itself. -/
def KeywordFree (t : TypeRef) : Prop :=
  (∀ s ∈ Text.cutAt '.' t.name, s ∉ keywords) ∨ (t.name ∈ predefinedTypes ∧ t.args = [])

/-- Nowhere in the normal spelling of a type is a segment of a name reserved or does a question mark
stand before a bracket. -/
structure Rereadable (t : TypeRef) : Prop where
  keywordFree : ∀ r : TypeRef, r.Within t → r.KeywordFree
  markFree : ∀ r : TypeRef, r.Within t → ¬(r.nullable = true ∧ 0 < r.rank)

variable {a t : TypeRef}

/-- What can be read again has arguments that can be. -/
theorem Rereadable.arg (h : t.Rereadable) (ha : a ∈ t.args) : a.Rereadable :=
  ⟨fun r hr => h.keywordFree r (.arg ha hr), fun r hr => h.markFree r (.arg ha hr)⟩

instance : DecidablePred KeywordFree := fun _ => inferInstanceAs (Decidable (_ ∨ _ ∧ _))

/-- Whether a type can be read again shows level by level. -/
theorem rereadable_iff : t.Rereadable ↔
    t.KeywordFree ∧ ¬(t.nullable = true ∧ 0 < t.rank) ∧ ∀ a ∈ t.args, a.Rereadable := by
  constructor
  · exact fun h => ⟨h.keywordFree t .self, h.markFree t .self, fun a ha => h.arg ha⟩
  · rintro ⟨hkeyword, hmark, hargs⟩
    refine ⟨fun r hr => ?_, fun r hr => ?_⟩ <;> cases hr with
    | self => assumption
    | arg ha hr => first | exact (hargs _ ha).keywordFree r hr | exact (hargs _ ha).markFree r hr

/-- What is inside of an erased type was inside of the type. -/
theorem Within.of_erase {r : TypeRef} (h : r.Within t.erase) :
    ∃ s : TypeRef, s.Within t ∧ s.erase = r := by
  generalize ht : t.erase = u at h
  induction h generalizing t with
  | self => exact ⟨t, .self, ht⟩
  | arg ha _ ih =>
    subst ht
    rw [args_erase] at ha
    obtain ⟨b, hb, rfl⟩ := List.mem_map.mp ha
    obtain ⟨s, hs, hsr⟩ := ih rfl
    exact ⟨s, .arg hb hs, hsr⟩

/-- Spans do not matter to reading again. -/
theorem Rereadable.erase (h : t.Rereadable) : t.erase.Rereadable := by
  refine ⟨fun r hr => ?_, fun r hr => ?_⟩ <;> obtain ⟨s, hs, rfl⟩ := hr.of_erase
  · have := h.keywordFree s hs
    simpa [KeywordFree] using this
  · simpa using h.markFree s hs

end TypeRef

/-! ### Reading a spelling -/

section Reading

open Lexer

open Text.Utf8 (bytes bytes_append bytes_of_ascii)

variable {α β γ : Type} {cut : List UInt8} {Q : List Token → Prop} {c : Char}

/-- Tokens without a question mark before a bracket, with those of the rest behind them. -/
def CleanBeside (W Q : List Token → Prop) : List Token → Prop :=
  Beside (fun us => W us ∧ NoMarkBeforeBracket us) Q

/-- A list is read if each of its items is, wherever a comma or a bracket follows. -/
theorem lexes_separated {R : List Token → β → Prop} {key : β → γ} {name : α → String} {of : α → γ}
    {as : List α} (hne : as ≠ [])
    (hitem : ∀ a ∈ as, ∀ {cut Q}, Follows ",>)" cut → Lexes cut Q →
      Lexes (bytes (name a) ++ cut) (CleanBeside (fun us => ∃ b, R us b ∧ key b = of a) Q))
    (hcut : Follows ",>)" cut) (h : Lexes cut Q) :
    Lexes (bytes (", ".intercalate (as.map name)) ++ cut)
      (CleanBeside (fun us => ∃ bs, SeparatedBy R us bs ∧ bs.map key = as.map of) Q) := by
  -- along the list, from the back in the text: what is behind an item is read already
  induction as with
  | nil => exact absurd rfl hne
  | cons a as ih =>
    obtain ⟨ha, has⟩ := List.forall_mem_cons.mp hitem
    cases as with
    | nil =>
      rw [List.map_singleton, String.intercalate_singleton]
      refine (ha hcut h).imp ?_
      rintro _ ⟨us, vs, rfl, ⟨⟨b, hb, hkey⟩, hclean⟩, hvs⟩
      exact ⟨us, vs, rfl, ⟨⟨[b], .one hb, by simp [hkey]⟩, hclean⟩, hvs⟩
    | cons a' as =>
      have hcomma : bytes ", " = [ascii ',', ascii ' '] := bytes_of_ascii (by decide)
      have hrest := ih (List.cons_ne_nil _ _) has
      rw [List.map_cons, List.map_cons, String.intercalate_cons_cons, bytes_append, bytes_append,
        hcomma, List.append_assoc, List.append_assoc]
      have hbehind := Lexes.mark (c := ',') (by decide) (by simp; decide) hrest.space
      refine (ha (by simp [Follows]; decide) hbehind).imp ?_
      -- A comma touches no bracket, so the two halves stay clean where they meet.
      rintro _ ⟨us, _, rfl, ⟨⟨b, hb, hkey⟩, hclean⟩, t, _, rfl, ht, us', vs, rfl,
        ⟨⟨bs, hbs, hkeys⟩, hclean'⟩, hvs⟩
      refine ⟨us ++ t :: us', vs, by simp, ⟨⟨b :: bs, .cons hb ht hbs, by simp [hkey, hkeys]⟩, ?_⟩,
        hvs⟩
      refine hclean.append (.cons (Token.is_eq_of_is ht _) hclean') ?_
      rintro q - _ ⟨⟩ -
      exact Token.is_eq_of_is ht _

/-- A word that is not reserved is read as an identifier. -/
theorem lexes_ident {w : String} (hw : IsWord w) (hkeyword : w ∉ keywords) (hcut : identTail cut = 0)
    (h : Lexes cut Q) : Lexes (bytes w ++ cut) fun ts =>
      ∃ t us, ts = t :: us ∧ t.isIdent = true ∧ t.text = w ∧ Q us := by
  refine (Lexes.word hw hcut h).imp ?_
  rintro _ ⟨t, us, rfl, hkind, htext, hus⟩
  rw [if_neg (by simpa using hkeyword)] at hkind
  exact ⟨t, us, rfl, by simp [Token.isIdent, hkind], htext, hus⟩

section Names

variable {ws : List String} {R : List TypeRef → Prop}

/-- Segments behind points are read, and type arguments behind the last one. -/
theorem lexes_segments (hne : ws ≠ []) (hwords : ∀ w ∈ ws, IsWord w ∧ w ∉ keywords)
    (hcut : identTail cut = 0)
    (h : Lexes cut (CleanBeside (fun us => ∃ as, WritesArgs WritesType [] us as ∧ R as) Q)) :
    Lexes (ascii '.' :: (bytes (".".intercalate ws) ++ cut))
      (CleanBeside (fun us => ∃ as, WritesSegments WritesType [] us ws as ∧ R as) Q) := by
  -- along the segments, each of which stands behind a point; only the last one has arguments
  induction ws with
  | nil => exact absurd rfl hne
  | cons w ws ih =>
    obtain ⟨⟨hw, hkeyword⟩, hws⟩ := List.forall_mem_cons.mp hwords
    cases ws with
    | nil =>
      rw [String.intercalate_singleton]
      refine (Lexes.mark (c := '.') (by decide) (joins_word hw _ _)
        (lexes_ident hw hkeyword hcut h)).imp ?_
      rintro _ ⟨p, _, rfl, hp, t, _, rfl, ht, rfl, us, vs, rfl, ⟨⟨as, has, hR⟩, hclean⟩, hvs⟩
      have hus := WritesSegments.cons hp ht has .nil
      refine ⟨p :: t :: us, vs, rfl, ⟨⟨as, by simpa using hus, hR⟩, ?_⟩, hvs⟩
      exact .cons (Token.is_eq_of_is hp _) (.cons (Token.is_eq_false_of_isIdent ht _) hclean)
    | cons w' ws =>
      have hpoint : bytes "." = [ascii '.'] := bytes_of_ascii (by decide)
      have hrest := ih (List.cons_ne_nil _ _) hws
      have htail : identTail (ascii '.' :: (bytes (".".intercalate (w' :: ws)) ++ cut)) = 0 :=
        identTail_mark (by decide) _
      rw [String.intercalate_cons_cons, bytes_append, bytes_append, hpoint, List.append_assoc,
        List.append_assoc]
      refine (Lexes.mark (c := '.') (by decide) (joins_word hw _ _)
        (lexes_ident hw hkeyword htail hrest)).imp ?_
      rintro _ ⟨p, _, rfl, hp, t, _, rfl, ht, rfl, us, vs, rfl, ⟨⟨as, has, hR⟩, hclean⟩, hvs⟩
      have hus := WritesSegments.cons hp ht .none has
      refine ⟨p :: t :: us, vs, rfl, ⟨⟨as, by simpa using hus, hR⟩, ?_⟩, hvs⟩
      exact .cons (Token.is_eq_of_is hp _) (.cons (Token.is_eq_false_of_isIdent ht _) hclean)

/-- A dotted name is read, with type arguments behind it. -/
theorem lexes_name (hne : ws ≠ []) (hwords : ∀ w ∈ ws, IsWord w ∧ w ∉ keywords)
    (hcut : identTail cut = 0)
    (h : Lexes cut (CleanBeside (fun us => ∃ as, WritesArgs WritesType [] us as ∧ R as) Q)) :
    Lexes (bytes (".".intercalate ws) ++ cut) (CleanBeside (fun us => ∃ as,
      WritesUnmarked WritesType us { span := .none, name := ".".intercalate ws, args := as } ∧
        R as) Q) := by
  obtain ⟨w, ws, rfl⟩ := List.exists_cons_of_ne_nil hne
  obtain ⟨⟨hw, hkeyword⟩, hws⟩ := List.forall_mem_cons.mp hwords
  cases ws with
  | nil =>
    rw [String.intercalate_singleton]
    refine (lexes_ident hw hkeyword hcut h).imp ?_
    rintro _ ⟨t, _, rfl, ht, rfl, us, vs, rfl, ⟨⟨as, has, hR⟩, hclean⟩, hvs⟩
    refine ⟨t :: us, vs, rfl, ⟨⟨as, ?_, hR⟩, .cons (Token.is_eq_false_of_isIdent ht _) hclean⟩, hvs⟩
    simpa using WritesUnmarked.named (.plain ht) has .nil
  | cons w' ws =>
    have hpoint : bytes "." = [ascii '.'] := bytes_of_ascii (by decide)
    have hrest := lexes_segments (List.cons_ne_nil _ _) hws hcut h
    -- The first segment ends where a point or what follows the name stands.
    have htail : identTail (ascii '.' :: (bytes (".".intercalate (w' :: ws)) ++ cut)) = 0 :=
      identTail_mark (by decide) _
    rw [String.intercalate_cons_cons, bytes_append, bytes_append, hpoint, List.append_assoc,
      List.append_assoc]
    refine (lexes_ident hw hkeyword htail hrest).imp ?_
    rintro _ ⟨t, _, rfl, ht, rfl, us, vs, rfl, ⟨⟨as, has, hR⟩, hclean⟩, hvs⟩
    refine ⟨t :: us, vs, rfl, ⟨⟨as, ?_, hR⟩, .cons (Token.is_eq_false_of_isIdent ht _) hclean⟩, hvs⟩
    simpa using WritesUnmarked.named (.plain ht) .none has

end Names

/-! ### Marks -/

/-- The marks of a type, in the order of its normal spelling. -/
def marksOf (pointer nullable : Bool) (rank : Nat) : List TypeMark :=
  (if pointer then [TypeMark.pointer] else []) ++
    ((if nullable then [TypeMark.nullable] else []) ++ List.replicate rank TypeMark.array)

/-- The normal spelling of marks. -/
def markText (pointer nullable : Bool) (rank : Nat) : String :=
  (if pointer then "*" else "") ++ ((if nullable then "?" else "") ++
    String.join (List.replicate rank "[]"))

theorem bytes_brackets (n : Nat) : bytes (String.join (List.replicate (n + 1) "[]")) =
    ascii '[' :: ascii ']' :: bytes (String.join (List.replicate n "[]")) := by
  have hpair : bytes "[]" = [ascii '[', ascii ']'] := bytes_of_ascii (by decide)
  have hjoin : String.join (List.replicate (n + 1) "[]") =
      "[]" ++ String.join (List.replicate n "[]") := by
    refine String.toList_inj.mp ?_
    simp [String.join_eq, List.replicate_succ]
  rw [hjoin, bytes_append, hpair]
  rfl

/-- Bracket pairs lex to the tokens that write as many array marks. -/
theorem lexes_brackets (n : Nat) (hcut : Follows ",>)" cut) (h : Lexes cut Q) :
    Lexes (bytes (String.join (List.replicate n "[]")) ++ cut)
      (CleanBeside (fun us => WritesMarks us (List.replicate n .array)) Q) ∧
    Follows "[,>)" (bytes (String.join (List.replicate n "[]")) ++ cut) := by
  induction n with
  | zero =>
    have hempty : bytes (String.join (List.replicate 0 "[]")) = [] := bytes_of_ascii (by decide)
    rw [hempty]
    exact ⟨h.imp fun ts hts => ⟨[], ts, rfl, ⟨.nil, List.isChain_nil⟩, hts⟩,
      hcut.mono (by decide)⟩
  | succ n ih =>
    -- The brackets of one more pair touch each other, and the pair touches the next.
    obtain ⟨hrest, hfollows⟩ := ih
    rw [bytes_brackets]
    refine ⟨?_, follows_cons (by decide) _⟩
    have hclose := Lexes.mark (c := ']') (by decide) (hfollows.joins_eq (by decide)) hrest
    refine (Lexes.mark (c := '[') (by decide) ?_ hclose).imp ?_
    · have hfollows (rest : List UInt8) : Follows "]" (ascii ']' :: rest) :=
        follows_cons (by decide) rest
      exact (hfollows _).joins_eq (by decide)
    · rintro _ ⟨o, _, rfl, ho, c, _, rfl, hc, us, vs, rfl, ⟨hus, hclean⟩, hvs⟩
      refine ⟨o :: c :: us, vs, rfl, ⟨?_, ?_⟩, hvs⟩
      · simpa [List.replicate_succ] using WritesMarks.cons (.array [] ho nofun hc) hus
      · exact .cons (Token.is_eq_of_is ho _) (.cons (Token.is_eq_of_is hc _) hclean)

/-- A question mark and brackets are read if only one of them stands there. -/
theorem lexes_nullable {nullable : Bool} {rank : Nat} (hcut : Follows ",>)" cut)
    (hrank : nullable = true → rank = 0) (h : Lexes cut Q) :
    Lexes (bytes (if nullable then "?" else "") ++
        (bytes (String.join (List.replicate rank "[]")) ++ cut))
      (CleanBeside (fun us => WritesMarks us
        ((if nullable then [TypeMark.nullable] else []) ++
          List.replicate rank TypeMark.array)) Q) ∧
      Follows "?[,>)" (bytes (if nullable then "?" else "") ++
        (bytes (String.join (List.replicate rank "[]")) ++ cut)) := by
  have hempty : bytes "" = [] := bytes_of_ascii (by decide)
  have hmark : bytes "?" = [ascii '?'] := bytes_of_ascii (by decide)
  obtain ⟨hbrackets, hfollows⟩ := lexes_brackets rank hcut h
  cases nullable with
  | false =>
    simp only [Bool.false_eq_true, if_false, hempty, List.nil_append]
    exact ⟨hbrackets, hfollows.mono (by decide)⟩
  -- With a question mark there are no brackets, so that it stands in front of none.
  | true =>
    obtain rfl := hrank rfl
    have hjoin : bytes (String.join (List.replicate 0 "[]")) = [] := bytes_of_ascii (by decide)
    simp only [if_true, hmark, hjoin]
    refine ⟨(Lexes.mark (c := '?') (by decide) (hcut.joins_eq (by decide)) h).imp ?_,
      follows_cons (by decide) _⟩
    rintro _ ⟨q, us, rfl, hq, hus⟩
    exact ⟨[q], us, rfl, ⟨.cons (.nullable hq) .nil, List.isChain_singleton q⟩, hus⟩

/-- Marks are read if no question mark comes to stand before a bracket. -/
theorem lexes_marks (pointer : Bool) {nullable : Bool} {rank : Nat} (hcut : Follows ",>)" cut)
    (hrank : nullable = true → rank = 0) (h : Lexes cut Q) :
    Lexes (bytes (markText pointer nullable rank) ++ cut)
      (CleanBeside (fun us => WritesMarks us (marksOf pointer nullable rank)) Q) ∧
    Follows "*?[,>)" (bytes (markText pointer nullable rank) ++ cut) := by
  have hempty : bytes "" = [] := bytes_of_ascii (by decide)
  have hstar : bytes "*" = [ascii '*'] := bytes_of_ascii (by decide)
  rw [markText, marksOf, bytes_append, bytes_append, List.append_assoc, List.append_assoc]
  obtain ⟨hnullable, hfollows⟩ := lexes_nullable hcut hrank h
  generalize bytes (if nullable then "?" else "") ++
    (bytes (String.join (List.replicate rank "[]")) ++ cut) = behind at hnullable hfollows ⊢
  cases pointer with
  | false =>
    simp only [Bool.false_eq_true, if_false, hempty, List.nil_append]
    exact ⟨hnullable, hfollows.mono (by decide)⟩
  | true =>
    simp only [if_true, hstar]
    refine ⟨(Lexes.mark (c := '*') (by decide) (hfollows.joins_eq (by decide)) hnullable).imp ?_,
      follows_cons (by decide) _⟩
    rintro _ ⟨s, _, rfl, hs, us, vs, rfl, ⟨hus, hclean⟩, hvs⟩
    exact ⟨s :: us, vs, rfl, ⟨.cons (.pointer hs) hus, .cons (Token.is_eq_of_is hs _) hclean⟩, hvs⟩

/-! ### Types -/

section Items

variable {args : List TypeRef}

/-- A list of type arguments is read with its brackets. -/
theorem lexes_typeArgs (hne : args ≠ [])
    (hhead : ∀ rest, ∀ d ∈ (bytes (", ".intercalate (args.map TypeRef.text)) ++
      ascii '>' :: rest).head?, joins (ascii '<') d = false)
    (hitem : ∀ a ∈ args, ∀ {cut Q}, Follows ",>)" cut → Lexes cut Q →
      Lexes (bytes a.text ++ cut)
        (CleanBeside (fun us => ∃ u, WritesArg WritesType us u ∧ u.plain = a.plain) Q))
    (hcut : ∀ d ∈ cut.head?, joins (ascii '>') d = false) (h : Lexes cut Q) :
    Lexes (ascii '<' :: (bytes (", ".intercalate (args.map TypeRef.text)) ++ ascii '>' :: cut))
      (CleanBeside (fun us => ∃ bs, WritesArgs WritesType [] us bs ∧
        bs.map TypeRef.plain = args.map TypeRef.plain) Q) := by
  have hclose := Lexes.mark (c := '>') (by decide) hcut h
  have hitems := lexes_separated hne hitem (follows_cons (by decide) cut) hclose
  refine (Lexes.mark (c := '<') (by decide) (hhead cut) hitems).imp ?_
  rintro _ ⟨o, _, rfl, ho, us, _, rfl, ⟨⟨bs, hbs, hplain⟩, hclean⟩, c, vs, rfl, hc, hvs⟩
  refine ⟨o :: (us ++ [c]), vs, by simp, ⟨⟨bs, .some ho hbs hc, hplain⟩, ?_⟩, hvs⟩
  exact .cons (Token.is_eq_of_is ho _) (hclean.concat (Token.is_eq_of_is hc _))

/-- A tuple is read with its brackets. -/
theorem lexes_tuple (htwo : 2 ≤ args.length)
    (hhead : ∀ rest, ∀ d ∈ (bytes (", ".intercalate (args.map TypeRef.text)) ++
      ascii ')' :: rest).head?, joins (ascii '(') d = false)
    (hitem : ∀ a ∈ args, ∀ {cut Q}, Follows ",>)" cut → Lexes cut Q →
      Lexes (bytes a.text ++ cut)
        (CleanBeside (fun us => ∃ u, WritesType us u ∧ u.plain = a.plain) Q))
    (hcut : ∀ d ∈ cut.head?, joins (ascii ')') d = false) (h : Lexes cut Q) :
    Lexes (ascii '(' :: (bytes (", ".intercalate (args.map TypeRef.text)) ++ ascii ')' :: cut))
      (CleanBeside (fun us => ∃ u, WritesUnmarked WritesType us u ∧
        u.plain = { span := .none, name := TypeRef.tupleName, args := args.map TypeRef.plain })
        Q) := by
  have hne : args ≠ [] := by
    rintro rfl
    exact absurd htwo (by decide)
  have hclose := Lexes.mark (c := ')') (by decide) hcut h
  -- The names of the elements are not spelled, so each is an unnamed one.
  have helement : ∀ a ∈ args, ∀ {cut Q}, Follows ",>)" cut → Lexes cut Q →
      Lexes (bytes a.text ++ cut)
        (CleanBeside (fun us => ∃ e, WritesElement WritesType us e ∧ e.1.plain = a.plain) Q) := by
    intro a ha cut Q hcut h
    refine (hitem a ha hcut h).imp ?_
    rintro _ ⟨us, vs, rfl, ⟨⟨u, hu, hplain⟩, hclean⟩, hvs⟩
    exact ⟨us, vs, rfl, ⟨⟨(u, ""), .unnamed hu, hplain⟩, hclean⟩, hvs⟩
  have hitems := lexes_separated hne helement (follows_cons (by decide) cut) hclose
  refine (Lexes.mark (c := '(') (by decide) (hhead cut) hitems).imp ?_
  rintro _ ⟨o, _, rfl, ho, us, _, rfl, ⟨⟨es, hes, hplain⟩, hclean⟩, c, vs, rfl, hc, hvs⟩
  have hlength : es.length = args.length := by simpa using congrArg List.length hplain
  refine ⟨o :: (us ++ [c]), vs, by simp, ⟨⟨_, .tuple ho hes (hlength ▸ htwo) hc, ?_⟩, ?_⟩, hvs⟩
  · rw [TypeRef.plain_mk, List.map_map, ← hplain]
    rfl
  · exact .cons (Token.is_eq_of_is ho _) (hclean.concat (Token.is_eq_of_is hc _))

end Items

namespace TypeRef

variable {t : TypeRef}

/-- The normal spelling of a type without its marks. -/
def baseText (t : TypeRef) : String :=
  if t.name == tupleName then "(" ++ ", ".intercalate (t.args.map text) ++ ")"
  else if t.args.isEmpty then t.name
  else t.name ++ "<" ++ ", ".intercalate (t.args.map text) ++ ">"

/-- A spelling consists of a base and marks, in normal order. -/
theorem text_eq (t : TypeRef) :
    t.text = t.baseText ++ markText t.pointer t.nullable t.rank := by
  cases t
  rw [text, texts_eq_map, baseText, markText, String.append_assoc, String.append_assoc]

theorem plain_foldl_on (ms : List TypeMark) (t : TypeRef) :
    (ms.foldl TypeMark.on t).plain = ms.foldl TypeMark.on t.plain := by
  induction ms generalizing t with
  | nil => rfl
  | cons m ms ih =>
    rw [List.foldl_cons, List.foldl_cons, ih]
    cases m <;> cases t <;> rfl

/-- The marks of a type, put on its base, make up the type. -/
theorem foldl_marksOf (name : String) (args : List TypeRef) (pointer nullable : Bool) (rank : Nat) :
    (marksOf pointer nullable rank).foldl TypeMark.on { span := .none, name, args } =
      { span := .none, name, args, nullable, rank, pointer } := by
  have harrays (n : Nat) (t : TypeRef) : (List.replicate n TypeMark.array).foldl TypeMark.on t =
      { t with rank := t.rank + n } := by
    induction n generalizing t with
    | zero => cases t; rfl
    | succ n ih =>
      rw [List.replicate_succ, List.foldl_cons, ih]
      simp [TypeMark.on, Nat.add_assoc, Nat.add_comm 1]
  rw [marksOf, List.foldl_append, List.foldl_append, harrays]
  cases pointer <;> cases nullable <;> simp [TypeMark.on]

/-- A type is read from its spelling if it is read without its marks. -/
theorem lexes_marked (hrank : ¬(t.nullable = true ∧ 0 < t.rank))
    (hbase : ∀ {cut Q}, Follows "*?[,>)" cut → Lexes cut Q → Lexes (bytes t.baseText ++ cut)
      (CleanBeside (fun us => ∃ u, WritesUnmarked WritesType us u ∧
        u.plain = { span := .none, name := t.name, args := t.args.map plain }) Q))
    (hcut : Follows ",>)" cut) (h : Lexes cut Q) : Lexes (bytes t.text ++ cut)
      (CleanBeside (fun us => ∃ u, WritesType us u ∧ u.plain = t.plain) Q) := by
  have hzero (hn : t.nullable = true) : t.rank = 0 :=
    Nat.eq_zero_of_not_pos fun hpos => hrank ⟨hn, hpos⟩
  obtain ⟨hmarks, hfollows⟩ := lexes_marks t.pointer hcut hzero h
  rw [text_eq, bytes_append, List.append_assoc]
  refine (hbase hfollows hmarks).imp ?_
  rintro _ ⟨us, _, rfl, ⟨⟨u, hu, hplain⟩, hclean⟩, vs, ws, rfl, ⟨hvs, hclean'⟩, hws⟩
  refine ⟨us ++ vs, ws, by simp, ⟨⟨_, .mk hu hvs, ?_⟩, ?_⟩, hws⟩
  · rw [plain_foldl_on, hplain, foldl_marksOf]
    cases t
    rw [plain_mk]
  · exact hclean.append_of_end hclean' hu.noMarkAtEnd

theorem cutAt_intercalate {ws : List String} (hne : ws ≠ []) (hwords : ∀ w ∈ ws, IsWord w) :
    Text.cutAt '.' (".".intercalate ws) = ws := by
  have hpoint : ".".toList = ['.'] := rfl
  have hpart : ¬isIdentPart '.' = true := Bool.eq_false_iff.mp (isIdentPart_mark (by decide))
  rw [Text.cutAt, String.toList_intercalate, hpoint, List.splitOn_intercalate]
  · simp [Function.comp_def]
  · intro l hl
    obtain ⟨w, hw, rfl⟩ := List.mem_map.mp hl
    exact fun hmem => hpart ((hwords w hw).isIdentPart_of_mem hmem)
  · simpa using hne

/-- The only type without a name is the omitted one. -/
theorem MadeOfWords.eq_omitted (h : t.MadeOfWords) (hname : t.name = "") : t = .omitted := by
  cases h with
  | omitted => rfl
  | named hne hwords => exact absurd hname (intercalate_ne_empty hne hwords)
  | tuple =>
    have hne : tupleName ≠ "" := by decide
    exact absurd hname hne

/-- A name is spelled with its arguments in angle brackets. -/
theorem baseText_named (hname : t.name ≠ tupleName) : t.baseText =
    if t.args.isEmpty then t.name
    else t.name ++ "<" ++ ", ".intercalate (t.args.map text) ++ ">" :=
  if_neg (by simpa using hname)

/-- A spelling begins with a word or a parenthesis. -/
theorem MadeOfWords.exists_baseText (h : t.MadeOfWords) (hname : t.name ≠ "") :
    (∃ w more, IsWord w ∧ t.baseText = w ++ more) ∨ ∃ more, t.baseText = "(" ++ more := by
  cases h with
  | omitted => exact absurd rfl hname
  | @named span ws args nullable rank pointer tupleNames hne hwords hargs =>
    obtain ⟨w, hmem, more, hjoined⟩ := exists_intercalate hne
    refine .inl ⟨w, ?_⟩
    rw [baseText_named (intercalate_ne_tupleName hwords)]
    split
    · exact ⟨more, hwords w hmem, hjoined⟩
    · refine ⟨more ++ "<" ++ ", ".intercalate (args.map text) ++ ">", hwords w hmem, ?_⟩
      dsimp only
      rw [hjoined]
      simp only [String.append_assoc]
  | @tuple span args nullable rank pointer tupleNames htwo hargs hnames =>
    exact .inr ⟨", ".intercalate (args.map text) ++ ")", String.append_assoc⟩

/-- So no mark in front of it joins it. -/
theorem MadeOfWords.joins_text (h : t.MadeOfWords) (hname : t.name ≠ "") {c : Char}
    (hc : c ∈ typeMarks) (rest : List UInt8) :
    ∀ d ∈ (bytes t.text ++ rest).head?, joins (ascii c) d = false := by
  have hmarks : typeMarks.all fun c => !joins (ascii c) (ascii '(') := by decide
  rw [text_eq]
  rcases h.exists_baseText hname with ⟨w, more, hw, hbase⟩ | ⟨more, hbase⟩
  · rw [hbase, String.append_assoc, bytes_append, List.append_assoc]
    exact joins_word hw _ _
  · have hparen : bytes "(" = [ascii '('] := bytes_of_ascii (by decide)
    rw [hbase, String.append_assoc, bytes_append, hparen]
    rintro _ ⟨⟩
    simpa using List.all_eq_true.mp hmarks c hc

/-- A list of types begins with nothing that goes on with the bracket in front of it. -/
theorem joins_texts {args : List TypeRef} {c close : Char} (hne : args ≠ [])
    (hargs : ∀ a ∈ args, a.MadeOfWords) (hc : c ∈ typeMarks)
    (hcomma : joins (ascii c) (ascii ',') = false)
    (hclose : joins (ascii c) (ascii close) = false) (rest : List UInt8) :
    ∀ d ∈ (bytes (", ".intercalate (args.map text)) ++ ascii close :: rest).head?,
      joins (ascii c) d = false := by
  have hempty : bytes TypeRef.omitted.text = [] := bytes_of_ascii (by decide)
  have hpair : bytes ", " = [ascii ',', ascii ' '] := bytes_of_ascii (by decide)
  obtain ⟨a, as, rfl⟩ := List.exists_cons_of_ne_nil hne
  have ha := hargs a List.mem_cons_self
  -- The list begins with its first item, and what is behind that joins the bracket no more.
  obtain ⟨behind, hbehind, hjoins⟩ : ∃ behind,
      bytes (", ".intercalate ((a :: as).map text)) ++ ascii close :: rest =
        bytes a.text ++ behind ∧ ∀ d ∈ behind.head?, joins (ascii c) d = false := by
    cases as with
    | nil =>
      refine ⟨ascii close :: rest, by simp, ?_⟩
      rintro _ ⟨⟩
      exact hclose
    | cons a' as =>
      refine ⟨ascii ',' :: ascii ' ' ::
        (bytes (", ".intercalate ((a' :: as).map text)) ++ ascii close :: rest), ?_, ?_⟩
      · rw [List.map_cons, List.map_cons, String.intercalate_cons_cons, bytes_append, bytes_append,
          hpair]
        simp
      · rintro _ ⟨⟩
        exact hcomma
  rw [hbehind]
  by_cases hname : a.name = ""
  · rw [ha.eq_omitted hname, hempty]
    exact hjoins
  · exact ha.joins_text hname hc behind

/-- A predefined type is read from its name. -/
theorem lexes_predefined {name : String} (hmem : name ∈ predefinedTypes) (hcut : identTail cut = 0)
    (h : Lexes cut Q) : Lexes (bytes name ++ cut) (CleanBeside (fun us => ∃ u,
      WritesUnmarked WritesType us u ∧ u.plain = { span := .none, name }) Q) := by
  have hkeywords : predefinedTypes.all keywords.contains := by decide
  refine (Lexes.word (isWord_of_mem_predefinedTypes hmem) hcut h).imp ?_
  rintro _ ⟨t, us, rfl, hkind, rfl, hus⟩
  rw [if_pos (List.all_eq_true.mp hkeywords _ hmem)] at hkind
  have ht : t.isPredefinedType = true := by simp [Token.isPredefinedType, hkind, hmem]
  exact ⟨[t], us, rfl, ⟨⟨_, .predefined ht, rfl⟩, List.isChain_singleton t⟩, hus⟩

/-- A name with type arguments is read if they are. -/
theorem lexes_named {ws : List String} {args : List TypeRef} (hne : ws ≠ [])
    (hwords : ∀ w ∈ ws, IsWord w ∧ w ∉ keywords) (hargs : ∀ a ∈ args, a.MadeOfWords)
    (hitem : ∀ a ∈ args, ∀ {cut Q}, Follows ",>)" cut → Lexes cut Q → Lexes (bytes a.text ++ cut)
      (CleanBeside (fun us => ∃ u, WritesArg WritesType us u ∧ u.plain = a.plain) Q))
    (hcut : Follows "*?[,>)" cut) (h : Lexes cut Q) :
    Lexes (bytes (if args.isEmpty then ".".intercalate ws
        else ".".intercalate ws ++ "<" ++ ", ".intercalate (args.map text) ++ ">") ++ cut)
      (CleanBeside (fun us => ∃ u, WritesUnmarked WritesType us u ∧
        u.plain = { span := .none, name := ".".intercalate ws, args := args.map plain }) Q) := by
  -- The arguments are the same types as before, so the whole is the same.
  have hplain {cut : List UInt8} {Q : List Token → Prop}
      (h : Lexes cut (CleanBeside (fun us => ∃ as, WritesUnmarked WritesType us
        { span := .none, name := ".".intercalate ws, args := as } ∧
          as.map plain = args.map plain) Q)) :
      Lexes cut (CleanBeside (fun us => ∃ u, WritesUnmarked WritesType us u ∧
        u.plain = { span := .none, name := ".".intercalate ws, args := args.map plain }) Q) := by
    refine h.imp ?_
    rintro _ ⟨us, vs, rfl, ⟨⟨as, has, heq⟩, hclean⟩, hvs⟩
    exact ⟨us, vs, rfl, ⟨⟨_, has, by rw [plain_mk, heq]⟩, hclean⟩, hvs⟩
  have hopen : bytes "<" = [ascii '<'] := bytes_of_ascii (by decide)
  have hclose : bytes ">" = [ascii '>'] := bytes_of_ascii (by decide)
  refine hplain ?_
  cases args with
  | nil =>
    refine lexes_name hne hwords (hcut.identTail_eq (by decide)) (h.imp fun ts hts => ?_)
    exact ⟨[], ts, rfl, ⟨⟨[], .none, rfl⟩, List.isChain_nil⟩, hts⟩
  | cons a as =>
    have hbrackets := lexes_typeArgs (List.cons_ne_nil a as) (joins_texts (List.cons_ne_nil a as)
      hargs (by decide) (by decide) (by decide)) hitem (hcut.joins_eq (by decide)) h
    have htail : identTail (ascii '<' ::
        (bytes (", ".intercalate ((a :: as).map text)) ++ ascii '>' :: cut)) = 0 :=
      identTail_mark (by decide) _
    have hname := lexes_name hne hwords htail hbrackets
    rw [if_neg (by simp), bytes_append, bytes_append, bytes_append, hopen, hclose]
    simpa using hname

/-- The normal spelling of a type is read as the tokens of that type. -/
theorem MadeOfWords.lexes_text (h : t.MadeOfWords) (hread : t.Rereadable) (hname : t.name ≠ "")
    (hcut : Follows ",>)" cut) (hQ : Lexes cut Q) : Lexes (bytes t.text ++ cut)
      (CleanBeside (fun us => ∃ u, WritesType us u ∧ u.plain = t.plain) Q) := by
  induction h generalizing cut Q with
  | omitted => exact absurd rfl hname
  | @named span ws args nullable rank pointer tupleNames hne hwords hargs ih =>
    refine lexes_marked (hread.markFree _ .self) (fun {cut Q} hcut h => ?_) hcut hQ
    rw [baseText_named (intercalate_ne_tupleName hwords)]
    -- Either no segment is reserved, or the type is a predefined one without arguments.
    rcases hread.keywordFree _ .self with hkeywords | ⟨hpredefined, hempty⟩
    · rw [cutAt_intercalate hne hwords] at hkeywords
      refine lexes_named hne (fun w hw => ⟨hwords w hw, hkeywords w hw⟩) hargs
        (fun a ha {cut Q} hcut h => ?_) hcut h
      -- An argument that is left out is spelled with no characters.
      by_cases homitted : a.name = ""
      · obtain rfl := (hargs a ha).eq_omitted homitted
        have hbytes : bytes TypeRef.omitted.text = [] := bytes_of_ascii (by decide)
        rw [hbytes]
        refine h.imp fun ts hts => ⟨[], ts, rfl, ⟨⟨_, .omitted, rfl⟩, List.isChain_nil⟩, hts⟩
      · refine (ih a ha (hread.arg ha) homitted hcut h).imp ?_
        rintro _ ⟨us, vs, rfl, ⟨⟨u, hu, hplain⟩, hclean⟩, hvs⟩
        exact ⟨us, vs, rfl, ⟨⟨u, .type hu, hplain⟩, hclean⟩, hvs⟩
    · obtain rfl : args = [] := hempty
      exact lexes_predefined hpredefined (hcut.identTail_eq (by decide)) h
  | @tuple span args nullable rank pointer tupleNames htwo hargs hnames ih =>
    refine lexes_marked (hread.markFree _ .self) (fun {cut Q} hcut h => ?_) hcut hQ
    have hopen : bytes "(" = [ascii '('] := bytes_of_ascii (by decide)
    have hclose : bytes ")" = [ascii ')'] := bytes_of_ascii (by decide)
    have hne : args ≠ [] := by
      rintro rfl
      exact absurd htwo (by decide)
    have htuple := lexes_tuple htwo (joins_texts hne hargs (by decide) (by decide) (by decide))
      (fun a ha {cut Q} hcut h => ih a ha (hread.arg ha) (hnames a ha) hcut h)
      (hcut.joins_eq (by decide)) h
    show Lexes (bytes ("(" ++ ", ".intercalate (args.map text) ++ ")") ++ cut) _
    rw [bytes_append, bytes_append, hopen, hclose]
    simpa using htuple

theorem MadeOfWords.not_byteOrderMark (h : t.MadeOfWords) (hname : t.name ≠ "") :
    byteOrderMark.isPrefixOf (bytes t.text) = false := by
  have hstart : isIdentStart '\uFEFF' = false := by
    simp only [isIdentStart, Text.isLetter, contains_eq_any]
    decide +kernel
  rw [Bool.eq_false_iff]
  intro hmark
  have hhead := isPrefixOf_byteOrderMark hmark
  rw [text_eq, String.toList_append] at hhead
  rcases h.exists_baseText hname with ⟨w, more, ⟨c, cs, hw, hc, -⟩, hbase⟩ | ⟨more, hbase⟩
  · rw [hbase, String.toList_append, hw] at hhead
    obtain rfl := Option.some.inj hhead
    rw [hstart] at hc
    cases hc
  · rw [hbase, String.toList_append] at hhead
    exact absurd (Option.some.inj hhead) (by decide)

end TypeRef

end Reading

/-! ### Types that were read -/

/-- The type that a text begins with, and the tokens behind it. -/
def Grammar.typeOfText (source : List UInt8) : Except SyntaxError (TypeRef × List Token) := do
  let (tokens, _) ← lex source
  let (t, c) ← type (rules tokens.length) { source, eof := tokens.getLast?.getD default }
    { rest := tokens.dropLast }
  return (t, c.rest)

/-- A type that was read at some place in a text. -/
def TypeRef.IsRead (t : TypeRef) : Prop :=
  ∃ source tokens nullable depth, ∃ (x : Input) (c c' : Grammar.Cursor),
    lex source = .ok (tokens, nullable) ∧ (∀ i ∈ c.rest, i ∈ tokens) ∧ x.eof.kind = .eof ∧
      type (rules depth) x c = .ok (t, c')

/-- The normal spelling of a type that was read is read in full, as the same type but for spans and
element names of tuples, unless a segment of a name is reserved or a question mark stands before a
bracket. -/
theorem TypeRef.IsRead.text_reread {t : TypeRef} (h : t.IsRead) (hread : t.Rereadable) :
    ∃ t', Grammar.typeOfText (Text.Utf8.bytes t.text) = .ok (t', []) ∧ t'.plain = t.plain := by
  obtain ⟨source, tokens, nullable, depth, x, c, c', hlex, hmem, heof, hrun⟩ := h
  -- What was read was written by tokens, so it is made of words.
  obtain ⟨ts, hts, hwrites⟩ := uses_type heof depth c t c' hrun
  obtain ⟨hwords, hname⟩ := hwrites.madeOfWords fun i hi =>
    Lexer.isWord_of_lex hlex (hmem i (by simp [hts, hi]))
  have hmark := hwords.not_byteOrderMark hname
  have hend : Lexer.Follows ",>)" [] := nofun
  have hlexes := hwords.lexes_text hread.erase hname hend (Lexer.lexes_nil (Q := (· = [])) rfl)
  rw [List.append_nil] at hlexes
  -- Spans do not show in the spelling.
  rw [text_erase] at hmark hlexes
  obtain ⟨_, last, nullable', hrun', hlast, us, _, rfl, ⟨⟨u, hu, hplain⟩, hclean⟩, rfl⟩ := hlexes {}
  rw [List.append_nil] at hrun'
  have hlex' : lex (Text.Utf8.bytes t.text) = .ok (us ++ [last], nullable') := by
    rw [lex, hmark]
    exact hrun'
  have hends : last.EndsType := fun s _ => by simp [Token.is, hlast]
  obtain ⟨t', k, hrun'', ht'⟩ := takes_type (x := { source := Text.Utf8.bytes t.text, eof := last })
    (r := []) (d := (us ++ [last]).length) hu (by simp) hclean hends 0
  rw [List.append_nil] at hrun''
  refine ⟨t', ?_, ?_⟩
  · rw [Grammar.typeOfText, hlex']
    show (do
      let (t, c) ← type (rules (us ++ [last]).length)
        { source := Text.Utf8.bytes t.text, eof := (us ++ [last]).getLast?.getD default }
        { rest := (us ++ [last]).dropLast }
      return (t, c.rest)) = _
    rw [List.dropLast_concat, List.getLast?_concat, Option.getD_some, hrun'']
    rfl
  · rw [← plain_erase t', ht', hplain, plain_erase]

/-- The text `A.B<(int x, C?), int[,]>*`. -/
def spelledText : List UInt8 := "A.B<(int x, C?), int[,]>*".toList.map Lexer.ascii

def spelledTokens : List Token :=
  [⟨.ident, "A", ⟨0, 1⟩, ""⟩, ⟨.punct, ".", ⟨1, 2⟩, ""⟩, ⟨.ident, "B", ⟨2, 3⟩, ""⟩,
   ⟨.punct, "<", ⟨3, 4⟩, ""⟩, ⟨.punct, "(", ⟨4, 5⟩, ""⟩, ⟨.keyword, "int", ⟨5, 8⟩, ""⟩,
   ⟨.ident, "x", ⟨9, 10⟩, ""⟩, ⟨.punct, ",", ⟨10, 11⟩, ""⟩, ⟨.ident, "C", ⟨12, 13⟩, ""⟩,
   ⟨.punct, "?", ⟨13, 14⟩, ""⟩, ⟨.punct, ")", ⟨14, 15⟩, ""⟩, ⟨.punct, ",", ⟨15, 16⟩, ""⟩,
   ⟨.keyword, "int", ⟨17, 20⟩, ""⟩, ⟨.punct, "[", ⟨20, 21⟩, ""⟩, ⟨.punct, ",", ⟨21, 22⟩, ""⟩,
   ⟨.punct, "]", ⟨22, 23⟩, ""⟩, ⟨.punct, ">", ⟨23, 24⟩, ""⟩, ⟨.punct, "*", ⟨24, 25⟩, ""⟩]

/-- The type that the text spells, which has another spelling of its own. -/
def spelledType : TypeRef where
  span := ⟨0, 25⟩
  name := "A.B"
  args := [
    { span := ⟨4, 15⟩, name := TypeRef.tupleName, tupleNames := ["x", ""],
      args := [{ span := ⟨5, 8⟩, name := "int" },
        { span := ⟨12, 14⟩, name := "C", nullable := true }] },
    { span := ⟨17, 23⟩, name := "int", rank := 1 }]
  pointer := true

/-- The type of the sample was read. -/
theorem spelledType_isRead : spelledType.IsRead := by
  obtain ⟨hok, hlexed⟩ : (lex spelledText).isOk = true ∧
      lexed spelledText = (spelledTokens ++ [⟨.eof, "", ⟨25, 25⟩, ""⟩], false) := by
    rw [show spelledText = _ from Lexer.ascii_ofList _]
    decide +kernel
  have hlex : lex spelledText = .ok (spelledTokens ++ [⟨.eof, "", ⟨25, 25⟩, ""⟩], false) := by
    rw [lex_eq_lexed hok, hlexed]
  refine ⟨spelledText, _, _, 19, ⟨spelledText, ⟨.eof, "", ⟨25, 25⟩, ""⟩⟩, ⟨spelledTokens, 0⟩,
    ⟨[], 25⟩, hlex, ?_, rfl, rfl⟩
  exact fun i hi => List.mem_append_left _ hi

theorem spelledType_reread : spelledType.text = "A.B<(int, C?), int[]>*" ∧
    ∃ t', Grammar.typeOfText (Text.Utf8.bytes spelledType.text) = .ok (t', []) ∧
      t'.plain = spelledType.plain := by
  have hbare (name : String) (h : name ∈ ["int", "C"]) (span : Span) (nullable : Bool) (rank : Nat)
      (hmark : ¬(nullable = true ∧ 0 < rank)) :
      TypeRef.Rereadable { span, name, nullable, rank } := by
    have hkeyword : ∀ name ∈ ["int", "C"], (∀ s ∈ Text.cutAt '.' name, s ∉ keywords) ∨
        name ∈ predefinedTypes := by decide +kernel
    exact TypeRef.rereadable_iff.mpr ⟨(hkeyword name h).imp_right fun h => ⟨h, rfl⟩, hmark, nofun⟩
  refine ⟨rfl, spelledType_isRead.text_reread <| TypeRef.rereadable_iff.mpr
    ⟨by decide +kernel, by decide, ?_⟩⟩
  refine List.forall_mem_cons.mpr ⟨TypeRef.rereadable_iff.mpr ⟨by decide +kernel, by decide, ?_⟩,
    List.forall_mem_singleton.mpr (hbare _ (by decide) _ _ _ (by decide))⟩
  exact List.forall_mem_cons.mpr ⟨hbare _ (by decide) _ _ _ (by decide),
    List.forall_mem_singleton.mpr (hbare _ (by decide) _ _ _ (by decide))⟩

end CSharpAudit
