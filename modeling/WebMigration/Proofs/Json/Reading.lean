import WebMigration.Proofs.Json.Notation

/-!
# What is denoted is read

The texts that denote a value, with blanks between the parts of lists and records, and the reader on them:
it takes the whole text and gives the value, whatever follows.
-/

namespace WebMigration.Json

/-- Nothing but blanks. -/
def IsBlank (cs : List Char) : Prop := ∀ c ∈ cs, isJsonBlank c = true

mutual

/-- A text and the value that it denotes. -/
inductive Denotes : List Char → Json → Prop
  | null : Denotes "null".toList .null
  | bool (b : Bool) : Denotes (if b then "true".toList else "false".toList) (.bool b)
  | number {negative whole fraction exponent text v} (h : NumberText negative whole fraction exponent text)
      (hv : numeral negative whole fraction exponent = .ok v) : Denotes text v
  | string {text cs} (h : Spells text cs) : Denotes ('"' :: (text ++ ['"'])) (.string (String.ofList cs))
  | emptyList {blanks} (h : IsBlank blanks) : Denotes ('[' :: (blanks ++ [']'])) (.list [])
  | list {text items} (h : DenotesItems text items) : Denotes ('[' :: (text ++ [']'])) (.list items)
  | emptyRecord {blanks} (h : IsBlank blanks) : Denotes ('\x7b' :: (blanks ++ ['\x7d'])) (.record [])
  | record {text fields} (h : DenotesFields text fields) :
      Denotes ('\x7b' :: (text ++ ['\x7d'])) (.record (distinct fields))

/-- The items of a list with commas between them and blanks around them. -/
inductive DenotesItems : List Char → List Json → Prop
  | last {front text back v} (hfront : IsBlank front) (h : Denotes text v) (hback : IsBlank back) :
      DenotesItems (front ++ (text ++ back)) [v]
  | more {front text back v others vs} (hfront : IsBlank front) (h : Denotes text v) (hback : IsBlank back)
      (hothers : DenotesItems others vs) : DenotesItems (front ++ (text ++ (back ++ ',' :: others))) (v :: vs)

/-- The fields of a record with commas between them and blanks around names and values. -/
inductive DenotesFields : List Char → List (String × Json) → Prop
  | last {front name cs gap front' text back v} (hfront : IsBlank front) (hname : Spells name cs)
      (hgap : IsBlank gap) (hfront' : IsBlank front') (h : Denotes text v) (hback : IsBlank back) :
      DenotesFields (front ++ '"' :: (name ++ '"' :: (gap ++ ':' :: (front' ++ (text ++ back)))))
        [(String.ofList cs, v)]
  | more {front name cs gap front' text back v others fields} (hfront : IsBlank front)
      (hname : Spells name cs) (hgap : IsBlank gap) (hfront' : IsBlank front') (h : Denotes text v)
      (hback : IsBlank back) (hothers : DenotesFields others fields) :
      DenotesFields (front ++ '"' :: (name ++ '"' :: (gap ++ ':' :: (front' ++ (text ++ (back ++ ',' :: others))))))
        ((String.ofList cs, v) :: fields)

end

variable {text rest blanks : List Char} {v : Json} {fuel : Nat}

/-! ### Blanks and numbers -/

theorem skipBlanks_cons {c : Char} (h : IsBlank blanks) (hc : isJsonBlank c = false) (r : List Char) :
    skipBlanks (blanks ++ c :: r) = c :: r := by
  rw [skipBlanks, List.dropWhile_append_of_pos h, List.dropWhile_cons_of_neg (by simp [hc])]

theorem isJsonBlank_of_isDigit {d : Char} (hd : d.isDigit = true) : isJsonBlank d = false := by
  by_contra h
  simp only [isJsonBlank, Bool.not_eq_false, Bool.or_eq_true, beq_iff_eq] at h
  rcases h with ((rfl | rfl) | rfl) | rfl <;> cases hd

theorem readWord_eq_none {d : Char} (hd : d.isDigit = true) (r : List Char) :
    readWord (d :: r) = none ∧ readWord ('-' :: d :: r) = none := by
  have hne : ∀ c : Char, c.isDigit = false → (c == d) = false := by
    intro c hc
    rw [beq_eq_false_iff_ne]
    rintro rfl
    rw [hd] at hc
    cases hc
  have hn := hne 'n' rfl
  have ht := hne 't' rfl
  have hf := hne 'f' rfl
  have hN := hne 'N' rfl
  have hI := hne 'I' rfl
  have hminus := hne '-' rfl
  constructor
  · simp [readWord, List.find?, List.isPrefixOf, hn, ht, hf, hN, hI, hminus]
  · simp [readWord, List.find?, List.isPrefixOf, hI]

theorem IsWhole.exists_cons {ds : List Char} (h : IsWhole ds) :
    ∃ d r, ds = d :: r ∧ d.isDigit = true := by
  rcases h with rfl | ⟨d, r, rfl, -, hdigits⟩
  · exact ⟨'0', [], rfl, by decide⟩
  · exact ⟨d, r, rfl, hdigits d List.mem_cons_self⟩

theorem readUnsigned_append {negative : Bool} {whole fractionText exponentText : List Char}
    {fraction : Option (List Char)} {exponent : Option Int} (hwhole : IsWhole whole)
    (hfraction : FractionText fractionText fraction) (hexponent : ExponentText exponentText exponent)
    (hv : numeral negative whole fraction exponent = .ok v) (hrest : EndsNumber rest) :
    readUnsigned negative (whole ++ (fractionText ++ (exponentText ++ rest))) = .ok (v, rest) := by
  have hhead := hexponent.head hrest
  have hread := readWhole_append hwhole (hfraction.head hhead)
  rw [readUnsigned_eq hread, readFraction_append hfraction hhead, readExponent_append hexponent hrest, hv]
  rfl

theorem readValue_number {negative : Bool} {whole : List Char} {fraction : Option (List Char)}
    {exponent : Option Int} (h : NumberText negative whole fraction exponent text)
    (hv : numeral negative whole fraction exponent = .ok v) (hrest : EndsNumber rest) :
    readValue (fuel + 1) (text ++ rest) = .ok (v, rest) := by
  obtain ⟨hwhole, hfraction, hexponent⟩ := h
  have hread := readUnsigned_append hwhole hfraction hexponent hv hrest
  obtain ⟨d, r, rfl, hd⟩ := hwhole.exists_cons
  simp only [List.append_assoc, List.cons_append] at hread ⊢
  cases negative with
  | true =>
    simp only [signText, if_true, List.singleton_append]
    rw [readValue]
    simp only [(readWord_eq_none hd _).2]
    exact hread
  | false =>
    simp only [signText, Bool.false_eq_true, if_false, List.nil_append]
    unfold readValue
    split
    · exact absurd ‹_› (cons_ne_of_isDigit hd rfl)
    · exact absurd ‹_› (cons_ne_of_isDigit hd rfl)
    · exact absurd ‹_› (cons_ne_of_isDigit hd rfl)
    · exact absurd ‹_› (cons_ne_of_isDigit hd rfl)
    · simp only [(readWord_eq_none hd _).1]
      exact hread

/-! ### Values -/

/-- A text of a value starts with a character that is no blank and closes no list. -/
theorem Denotes.exists_cons (h : Denotes text v) :
    ∃ c r, text = c :: r ∧ isJsonBlank c = false ∧ c ≠ ']' := by
  cases h with
  | null => exact ⟨_, _, rfl, by decide⟩
  | bool b =>
    cases b with
    | true => exact ⟨_, _, rfl, by decide⟩
    | false => exact ⟨_, _, rfl, by decide⟩
  | @number negative whole fraction exponent text v h hv =>
    obtain ⟨hwhole, hfraction, hexponent⟩ := h
    obtain ⟨d, r, rfl, hd⟩ := hwhole.exists_cons
    cases negative with
    | true => exact ⟨'-', _, rfl, by decide⟩
    | false =>
      refine ⟨d, _, rfl, isJsonBlank_of_isDigit hd, ?_⟩
      rintro rfl
      cases hd
  | string h => exact ⟨_, _, rfl, by decide⟩
  | emptyList h => exact ⟨_, _, rfl, by decide⟩
  | list h => exact ⟨_, _, rfl, by decide⟩
  | emptyRecord h => exact ⟨_, _, rfl, by decide⟩
  | record h => exact ⟨_, _, rfl, by decide⟩

theorem endsNumber_blank_or {c : Char} {r : List Char} (hblank : IsBlank blanks)
    (hc : c.isDigit = false ∧ c ≠ '.' ∧ c ≠ 'e' ∧ c ≠ 'E') : EndsNumber (blanks ++ c :: r) := by
  intro d hd
  cases blanks with
  | nil =>
    obtain rfl := Option.some.inj hd
    exact hc
  | cons b blanks =>
    obtain rfl := Option.some.inj hd
    have hb := hblank b List.mem_cons_self
    simp only [isJsonBlank, Bool.or_eq_true, beq_iff_eq] at hb
    rcases hb with ((rfl | rfl) | rfl) | rfl <;> decide

/-- A text is read as a value whenever there is fuel for its characters. -/
def ReadsValue (text : List Char) (v : Json) : Prop :=
  ∀ fuel rest, text.length < fuel → EndsNumber rest → readValue fuel (text ++ rest) = .ok (v, rest)

def ReadsItems (text : List Char) (items : List Json) : Prop :=
  ∀ fuel rest, text.length + 1 < fuel →
    readItems fuel (skipBlanks (text ++ ']' :: rest)) = .ok (items, rest)

def ReadsFields (text : List Char) (fields : List (String × Json)) : Prop :=
  ∀ fuel rest, text.length + 1 < fuel →
    readFields fuel (skipBlanks (text ++ '\x7d' :: rest)) = .ok (fields, rest)

theorem ReadsValue.of_succ (h : ∀ fuel rest, text.length ≤ fuel → EndsNumber rest →
    readValue (fuel + 1) (text ++ rest) = .ok (v, rest)) : ReadsValue text v := by
  rintro (_ | fuel) rest hfuel hrest
  · cases hfuel
  · exact h fuel rest (Nat.le_of_lt_succ hfuel) hrest

theorem ReadsItems.of_succ {items : List Json} (h : ∀ fuel rest, text.length < fuel →
    readItems (fuel + 1) (skipBlanks (text ++ ']' :: rest)) = .ok (items, rest)) :
    ReadsItems text items := by
  rintro (_ | fuel) rest hfuel
  · cases hfuel
  · exact h fuel rest (Nat.lt_of_succ_lt_succ hfuel)

theorem ReadsFields.of_succ {fields : List (String × Json)} (h : ∀ fuel rest, text.length < fuel →
    readFields (fuel + 1) (skipBlanks (text ++ '\x7d' :: rest)) = .ok (fields, rest)) :
    ReadsFields text fields := by
  rintro (_ | fuel) rest hfuel
  · cases hfuel
  · exact h fuel rest (Nat.lt_of_succ_lt_succ hfuel)

/-- The first item is read, and what follows it comes next. -/
theorem readItems_first {front back r : List Char} {c : Char} (hfront : IsBlank front)
    (h : Denotes text v) (hread : ReadsValue text v) (hback : IsBlank back)
    (hc : c.isDigit = false ∧ c ≠ '.' ∧ c ≠ 'e' ∧ c ≠ 'E') (hblank : isJsonBlank c = false)
    (hfuel : text.length < fuel) :
    skipBlanks (front ++ (text ++ (back ++ c :: r))) = text ++ (back ++ c :: r) ∧
      readValue fuel (text ++ (back ++ c :: r)) = .ok (v, back ++ c :: r) ∧
      skipBlanks (back ++ c :: r) = c :: r := by
  obtain ⟨d, tail, rfl, hd, -⟩ := h.exists_cons
  exact ⟨skipBlanks_cons hfront hd _, hread fuel _ hfuel (endsNumber_blank_or hback hc),
    skipBlanks_cons hback hblank r⟩

theorem readItems_last {front back : List Char} (hfront : IsBlank front) (h : Denotes text v)
    (hread : ReadsValue text v) (hback : IsBlank back) : ReadsItems (front ++ (text ++ back)) [v] := by
  refine .of_succ fun fuel rest hfuel => ?_
  have hlength : text.length < fuel := by
    simp at hfuel
    omega
  obtain ⟨hskip, hvalue, hend⟩ := readItems_first (r := rest) (c := ']') hfront h hread hback
    (by decide) (by decide) hlength
  simp only [List.append_assoc, hskip]
  rw [readItems, hvalue]
  simp [bind, Except.bind, hend, pure, Except.pure]

theorem readItems_more {front back others : List Char} {vs : List Json} (hfront : IsBlank front)
    (h : Denotes text v) (hread : ReadsValue text v) (hback : IsBlank back)
    (hothers : ReadsItems others vs) : ReadsItems (front ++ (text ++ (back ++ ',' :: others))) (v :: vs) := by
  refine .of_succ fun fuel rest hfuel => ?_
  have hlength : text.length < fuel ∧ others.length + 1 < fuel := by
    obtain ⟨c, r, rfl, -, -⟩ := h.exists_cons
    simp at hfuel
    simp
    omega
  obtain ⟨hskip, hvalue, hend⟩ := readItems_first (r := others ++ ']' :: rest) (c := ',') hfront h
    hread hback (by decide) (by decide) hlength.1
  have hnext := hothers fuel rest hlength.2
  simp only [List.append_assoc, List.cons_append, hskip]
  rw [readItems, hvalue]
  simp [bind, Except.bind, hend, hnext, pure, Except.pure]

/-- The name of a field is read, and its value comes next. -/
theorem readFields_name {front name cs gap : List Char} (hfront : IsBlank front)
    (hname : Spells name cs) (hgap : IsBlank gap) (rest : List Char) :
    skipBlanks (front ++ '"' :: (name ++ '"' :: (gap ++ ':' :: rest))) =
        '"' :: (name ++ '"' :: (gap ++ ':' :: rest)) ∧
      readString (name ++ '"' :: (gap ++ ':' :: rest)) = some (String.ofList cs, gap ++ ':' :: rest) ∧
      skipBlanks (gap ++ ':' :: rest) = ':' :: rest := by
  exact ⟨skipBlanks_cons hfront (by decide) _, readString_spells hname _,
    skipBlanks_cons hgap (by decide) rest⟩

theorem readFields_last {front name cs gap front' back : List Char} (hfront : IsBlank front)
    (hname : Spells name cs) (hgap : IsBlank gap) (hfront' : IsBlank front') (h : Denotes text v)
    (hread : ReadsValue text v) (hback : IsBlank back) :
    ReadsFields (front ++ '"' :: (name ++ '"' :: (gap ++ ':' :: (front' ++ (text ++ back)))))
      [(String.ofList cs, v)] := by
  refine .of_succ fun fuel rest hfuel => ?_
  have hlength : text.length < fuel := by
    simp at hfuel
    omega
  obtain ⟨hskip, hvalue, hend⟩ := readItems_first (r := rest) (c := '\x7d') hfront' h hread hback
    (by decide) (by decide) hlength
  obtain ⟨hquote, hstring, hcolon⟩ := readFields_name hfront hname hgap
    (front' ++ (text ++ (back ++ '\x7d' :: rest)))
  simp only [List.append_assoc, List.cons_append, hquote]
  rw [readFields, hstring]
  simp [bind, Except.bind, orMalformed, hcolon, hskip, hvalue, hend, pure, Except.pure]

theorem readFields_more {front name cs gap front' back others : List Char} {fields : List (String × Json)}
    (hfront : IsBlank front) (hname : Spells name cs) (hgap : IsBlank gap) (hfront' : IsBlank front')
    (h : Denotes text v) (hread : ReadsValue text v) (hback : IsBlank back)
    (hothers : ReadsFields others fields) :
    ReadsFields
      (front ++ '"' :: (name ++ '"' :: (gap ++ ':' :: (front' ++ (text ++ (back ++ ',' :: others))))))
      ((String.ofList cs, v) :: fields) := by
  refine .of_succ fun fuel rest hfuel => ?_
  have hlength : text.length < fuel ∧ others.length + 1 < fuel := by
    simp at hfuel
    omega
  obtain ⟨hskip, hvalue, hend⟩ := readItems_first (r := others ++ '\x7d' :: rest) (c := ',') hfront' h
    hread hback (by decide) (by decide) hlength.1
  obtain ⟨hquote, hstring, hcolon⟩ := readFields_name hfront hname hgap
    (front' ++ (text ++ (back ++ ',' :: (others ++ '\x7d' :: rest))))
  have hnext := hothers fuel rest hlength.2
  simp only [List.append_assoc, List.cons_append, hquote]
  rw [readFields, hstring]
  simp [bind, Except.bind, orMalformed, hcolon, hskip, hvalue, hend, hnext, pure, Except.pure]

theorem DenotesItems.exists_cons {items : List Json} (h : DenotesItems text items) (rest : List Char) :
    ∃ c r, skipBlanks (text ++ rest) = c :: r ∧ c ≠ ']' := by
  cases h with
  | @last front text back v hfront h hback =>
    obtain ⟨c, r, rfl, hblank, hclose⟩ := h.exists_cons
    refine ⟨c, r ++ back ++ rest, ?_, hclose⟩
    rw [List.append_assoc]
    exact skipBlanks_cons hfront hblank _
  | @more front text back v others vs hfront h hback hothers =>
    obtain ⟨c, r, rfl, hblank, hclose⟩ := h.exists_cons
    refine ⟨c, r ++ (back ++ ',' :: others) ++ rest, ?_, hclose⟩
    rw [List.append_assoc]
    exact skipBlanks_cons hfront hblank _

theorem DenotesFields.exists_cons {fields : List (String × Json)} (h : DenotesFields text fields)
    (rest : List Char) : ∃ r, skipBlanks (text ++ rest) = '"' :: r := by
  cases h with
  | last hfront hname hgap hfront' h hback =>
    rw [List.append_assoc]
    exact ⟨_, skipBlanks_cons hfront (by decide) _⟩
  | more hfront hname hgap hfront' h hback hothers =>
    rw [List.append_assoc]
    exact ⟨_, skipBlanks_cons hfront (by decide) _⟩

theorem readValue_list {items : List Json} (h : DenotesItems text items) (hread : ReadsItems text items) :
    ReadsValue ('[' :: (text ++ [']'])) (.list items) := by
  refine .of_succ fun fuel rest hfuel _ => ?_
  have hitems := hread fuel rest (by simp at hfuel; omega)
  obtain ⟨c, r, hskip, hclose⟩ := h.exists_cons (']' :: rest)
  simp only [List.cons_append, List.append_assoc, List.nil_append]
  rw [readValue]
  split
  · rename_i heq
    exact absurd (List.cons.inj (hskip.symm.trans heq)).1 hclose
  · rw [hitems]
    rfl

theorem readValue_record {fields : List (String × Json)} (h : DenotesFields text fields)
    (hread : ReadsFields text fields) :
    ReadsValue ('\x7b' :: (text ++ ['\x7d'])) (.record (distinct fields)) := by
  refine .of_succ fun fuel rest hfuel _ => ?_
  have hfields := hread fuel rest (by simp at hfuel; omega)
  obtain ⟨r, hskip⟩ := h.exists_cons ('\x7d' :: rest)
  simp only [List.cons_append, List.append_assoc, List.nil_append]
  rw [readValue]
  split
  · rename_i heq
    cases hskip.symm.trans heq
  · rw [hfields]
    rfl

/-- What is denoted is read. -/
theorem readsValue_of_denotes (h : Denotes text v) : ReadsValue text v := by
  refine @Denotes.rec (fun text v _ => ReadsValue text v) (fun text items _ => ReadsItems text items)
    (fun text fields _ => ReadsFields text fields) ?null ?bool ?number ?string ?emptyList ?list ?emptyRecord
    ?record ?lastItem ?moreItems ?lastField ?moreFields text v h
  case null => exact .of_succ fun _ _ _ _ => rfl
  case bool =>
    intro b
    refine .of_succ fun fuel rest _ _ => ?_
    cases b <;> rfl
  case number =>
    intro negative whole fraction exponent text v h hv
    exact .of_succ fun fuel rest _ hrest => readValue_number h hv hrest
  case string =>
    intro text cs h
    refine .of_succ fun fuel rest _ _ => ?_
    rw [List.cons_append, List.append_assoc, List.singleton_append, readValue, readString_spells h]
    rfl
  case emptyList =>
    intro blanks h
    refine .of_succ fun fuel rest _ _ => ?_
    have hskip := skipBlanks_cons (c := ']') h (by decide) rest
    rw [List.cons_append, List.append_assoc, List.singleton_append, readValue]
    simp [hskip]
  case list => exact fun h hread => readValue_list h hread
  case emptyRecord =>
    intro blanks h
    refine .of_succ fun fuel rest _ _ => ?_
    have hskip := skipBlanks_cons (c := '\x7d') h (by decide) rest
    rw [List.cons_append, List.append_assoc, List.singleton_append, readValue]
    simp [hskip]
  case record => exact fun h hread => readValue_record h hread
  case lastItem => exact fun hfront h hback hread => readItems_last hfront h hread hback
  case moreItems =>
    exact fun hfront h hback _ hread hothers => readItems_more hfront h hread hback hothers
  case lastField =>
    exact fun hfront hname hgap hfront' h hback hread =>
      readFields_last hfront hname hgap hfront' h hread hback
  case moreFields =>
    exact fun hfront hname hgap hfront' h hback _ hread hothers =>
      readFields_more hfront hname hgap hfront' h hread hback hothers

/-- A text that denotes a value is read as that value. -/
theorem parse_of_denotes {s : String} (h : Denotes s.toList v) : parse s = .ok v := by
  obtain ⟨c, r, htext, hblank, -⟩ := h.exists_cons
  have hskip : skipBlanks s.toList = s.toList := by
    rw [htext, skipBlanks, List.dropWhile_cons_of_neg (by simp [hblank])]
  have hread := readsValue_of_denotes h (s.toList.length + 1) [] (Nat.lt_succ_self _) (by rintro _ ⟨⟩)
  rw [List.append_nil] at hread
  simp only [parse, hskip, hread, bind, Except.bind]
  rfl

end WebMigration.Json
