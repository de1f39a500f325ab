import WebMigration.Proofs.Json.Reading
import WebMigration.Proofs.Number.Exact
import WebMigration.Proofs.Semantic.Answer

/-!
# Answers in the format that is asked for

Every text of a record with code, confidence, warnings and the mark for a review, bare or between fences, is
read as these four, but for a confidence of zero, which is taken for a missing one.
-/

namespace WebMigration.Json

/-! ### Fields by their names -/

variable {fields kept : List (String × Json)} {name : String} {v : Json}

theorem lookup?_of_mem (hnames : (fields.map (·.1)).Nodup) (h : (name, v) ∈ fields) :
    lookup? fields name = some v := by
  cases hfind : fields.reverse.find? (·.1 == name) with
  | none =>
    have hnot := List.find?_eq_none.1 hfind (name, v) (List.mem_reverse.2 h)
    simp at hnot
  | some f =>
    have hname : f.1 = name := by simpa using List.find?_some hfind
    have hf : f ∈ fields := List.mem_reverse.1 (List.mem_of_find?_eq_some hfind)
    have heq : f = (name, v) := List.inj_on_of_nodup_map hnames hf h hname
    rw [lookup?, hfind, heq]
    rfl

theorem foldl_put (hnames : ((kept ++ fields).map (·.1)).Nodup) :
    fields.foldl (fun kept f => put kept f.1 f.2) kept = kept ++ fields := by
  induction fields generalizing kept with
  | nil => simp
  | cons f rest ih =>
    have hnew : kept.any (·.1 == f.1) = false := by
      rw [List.any_eq_false]
      intro g hg hname
      rw [List.map_append, List.nodup_append] at hnames
      exact hnames.2.2 g.1 (List.mem_map_of_mem hg) f.1 (by simp) (by simpa using hname)
    rw [List.foldl_cons, put, hnew, if_neg (by simp), ih (by simpa using hnames)]
    simp

/-- Fields with names of their own are kept as they are. -/
theorem distinct_eq_self (hnames : (fields.map (·.1)).Nodup) : distinct fields = fields := by
  rw [distinct, foldl_put (by simpa using hnames), List.nil_append]

/-! ### Whole numbers -/

open Number in
/-- The value that a number stands for. -/
def literalValue (negative : Bool) (whole : List Char) (fraction : Option (List Char))
    (exponent : Option Int) : ℚ :=
  (if negative then -1 else 1) *
    (digitsValue (whole ++ fraction.getD []) * 10 ^ (exponent.getD 0 - ((fraction.getD []).length : Int)))

/-- What is read where a whole number is written in some way. -/
def IsLiteral (v : Json) (n : Nat) : Prop :=
  ∃ negative whole fraction exponent, literalValue negative whole fraction exponent = n ∧
    numeral negative whole fraction exponent = .ok v

end WebMigration.Json

namespace WebMigration.SemanticResult

open Text Number Json

variable {v : Json} {n : Nat}

theorem readConfidence_int (n : Nat) :
    readConfidence (.int n) = .ok (if n = 0 then assumedConfidence else n) := by
  by_cases hn : n = 0
  · subst hn
    rfl
  · simp [readConfidence, isTruthy, hn]

/-- A finite number with a whole positive value, as a quotient. -/
theorem quotient?_of_value {x : Binary64} (h : x.value? = some (n : ℚ)) (hn : 0 < n) :
    ∃ den, 0 < den ∧ x.quotient? = some ⟨false, n * den, den⟩ := by
  obtain ⟨q, hq, hvalue⟩ := Option.map_eq_some_iff.1 h
  have hden := Binary64.quotient?_den_pos hq
  have hden' : (0 : ℚ) < q.den := by exact_mod_cast hden
  have hn' : (0 : ℚ) < n := by exact_mod_cast hn
  obtain ⟨negative, num, den⟩ := q
  rw [Quotient.value, div_eq_iff hden'.ne'] at hvalue
  cases negative with
  | true =>
    have hnum : (0 : ℚ) ≤ num := Nat.cast_nonneg num
    have hproduct := mul_pos hn' hden'
    simp only [if_true] at hvalue
    linarith
  | false =>
    have hnum : num = n * den := by
      simp only [Bool.false_eq_true, if_false] at hvalue
      exact_mod_cast hvalue
    exact ⟨den, hden, by rw [hq, hnum]⟩

theorem readConfidence_float {x : Binary64} (h : x.value? = some (n : ℚ)) (hn : 0 < n) :
    readConfidence (.float x) = .ok (n : Int) := by
  obtain ⟨den, hden, hquotient⟩ := quotient?_of_value h hn
  have htruncate : x.truncate? = some (n : Int) := by
    rw [Binary64.truncate?, hquotient, Option.map_some]
    simp only [Bool.false_eq_true, if_false, Nat.mul_div_cancel n hden]
  cases x with
  | infinite negative => cases hquotient
  | nan => cases hquotient
  | finite negative m e =>
    have hm : m ≠ 0 := by
      rintro rfl
      rw [Binary64.quotient?_finite, Nat.zero_mul, Option.some.injEq] at hquotient
      have hnum := congrArg Quotient.num hquotient
      exact absurd hnum (Nat.mul_pos hn hden).ne
    simp [readConfidence, isTruthy, Binary64.isZero, hm, htruncate]

/-- What the digits of a number with a natural value come to. -/
theorem literalValue_eq {negative : Bool} {whole : List Char} {fraction : Option (List Char)}
    {exponent : Option Int} (h : literalValue negative whole fraction exponent = n) :
    (n = 0 ∧ digitsValue (whole ++ fraction.getD []) = 0) ∨
      0 < n ∧ negative = false ∧ (digitsValue (whole ++ fraction.getD []) : ℚ) *
        10 ^ (exponent.getD 0 - ((fraction.getD []).length : Int)) = n := by
  unfold literalValue at h
  have hten : (0 : ℚ) < 10 ^ (exponent.getD 0 - ((fraction.getD []).length : Int)) :=
    zpow_pos (by norm_num) _
  rcases Nat.eq_zero_or_pos n with rfl | hn
  · left
    refine ⟨rfl, ?_⟩
    have hsign : (if negative then (-1 : ℚ) else 1) ≠ 0 := by split <;> norm_num
    rw [Nat.cast_zero, mul_eq_zero, or_iff_right hsign, mul_eq_zero, or_iff_left hten.ne'] at h
    exact_mod_cast h
  · right
    have hn' : (0 : ℚ) < n := by exact_mod_cast hn
    cases negative with
    | false => exact ⟨hn, rfl, by simpa using h⟩
    | true =>
      have hproduct := mul_nonneg (Nat.cast_nonneg (digitsValue (whole ++ fraction.getD []))) hten.le
      simp only [if_true] at h
      linarith

/-- A number written in any way gives the confidence that it stands for, unless this is zero. -/
theorem readConfidence_literal (h : IsLiteral v n) (hsmall : n < 2 ^ 53) :
    readConfidence v = .ok (if n = 0 then assumedConfidence else (n : Int)) := by
  obtain ⟨negative, whole, fraction, exponent, hvalue, hv⟩ := h
  have hcases := literalValue_eq hvalue
  unfold numeral at hv
  split at hv
  · have hint : v = .int n := by
      dsimp only at hv
      split at hv
      · cases hv
      · obtain rfl := Except.ok.inj hv
        simp only [Option.getD_none, List.append_nil] at hcases
        rcases hcases with ⟨rfl, hdigits⟩ | ⟨-, rfl, hdigits⟩
        · simp [hdigits]
        · have hwhole : digitsValue whole = n := by exact_mod_cast (by simpa using hdigits)
          simp [hwhole]
    rw [hint]
    exact readConfidence_int n
  · obtain rfl := Except.ok.inj hv
    rcases hcases with ⟨rfl, hdigits⟩ | ⟨hn, rfl, hdigits⟩
    · rw [hdigits]
      rfl
    · rw [if_neg hn.ne']
      exact readConfidence_float (Binary64.value?_ofDecimal hdigits hn hsmall) hn

/-! ### Warnings and the record -/

theorem readWarnings_strings (warnings : List String) : readWarnings (.strings warnings) = warnings := by
  cases warnings with
  | nil => rfl
  | cons first rest =>
    simp [readWarnings, strings, isTruthy, Function.comp_def, display]

/-- The fields of an answer in the format that is asked for. -/
def formatFields (code : String) (confidence : Json) (warnings : List String) (review : Bool) :
    List (String × Json) :=
  [("code", .string code), ("confidence", confidence), ("warnings", .strings warnings),
    ("requiresReview", .bool review)]

variable {fields : List (String × Json)} {code : String} {warnings : List String} {review : Bool}

theorem nodup_of_perm (h : fields.Perm (formatFields code v warnings review)) :
    (fields.map (·.1)).Nodup := by
  have hnames : ((formatFields code v warnings review).map (·.1)).Nodup := by
    simp [formatFields]
  exact (h.map (·.1)).nodup_iff.2 hnames

theorem ofRecord_format (hfields : fields.Perm (formatFields code v warnings review))
    (hv : IsLiteral v n) (hn : n ≤ 100) :
    ofRecord fields (.string code) =
      .ok ⟨.string code, if n = 0 then assumedConfidence else (n : Int), warnings, review⟩ := by
  have hlookup : ∀ name w, (name, w) ∈ formatFields code v warnings review → lookup? fields name = some w :=
    fun name w h => lookup?_of_mem (nodup_of_perm hfields) (hfields.mem_iff.2 h)
  have hclamp : max 0 (min 100 (if n = 0 then assumedConfidence else (n : Int))) =
      if n = 0 then assumedConfidence else (n : Int) := by
    unfold assumedConfidence
    split <;> omega
  rw [ofRecord, hlookup "confidence" v (by simp [formatFields]),
    hlookup "warnings" (.strings warnings) (by simp [formatFields]),
    hlookup "requiresReview" (.bool review) (by simp [formatFields])]
  simp [readConfidence_literal hv (by omega), Except.map, hclamp, readWarnings_strings, isFalse]

/-- A text of a record with the fields of the format, in any order. -/
def Encodes (text : List Char) (code : String) (confidence : Nat) (warnings : List String) (review : Bool) :
    Prop :=
  ∃ number fields inside, IsLiteral number confidence ∧
    List.Perm fields (formatFields code number warnings review) ∧ DenotesFields inside fields ∧
    text = '\x7b' :: (inside ++ ['\x7d'])

/-- A text in an answer: with blanks around it, or between lines with fences, the first of which may go on
in any way. -/
inductive Wraps (text : List Char) : List Char → Prop
  | bare {front back} (hfront : ∀ c ∈ front, isSpace c = true) (hback : ∀ c ∈ back, isSpace c = true) :
      Wraps text (front ++ (text ++ back))
  | fenced {front info above below indent back} (hfront : ∀ c ∈ front, isSpace c = true)
      (hinfo : '\n' ∉ info) (habove : ∀ c ∈ above, isSpace c = true) (hbelow : ∀ c ∈ below, isSpace c = true)
      (hindent : ∀ c ∈ indent, isSpace c = true ∧ c ≠ '\n') (hback : ∀ c ∈ back, isSpace c = true) :
      Wraps text (front ++ (fence.toList ++ (info ++ '\n' :: (above ++ (text ++ (below ++
        '\n' :: (indent ++ fence.toList))))) ++ back))

/-! ### Wrapped texts -/

section Wraps

variable {answer : String} {inside : List Char}

theorem strip_of_blanks {front text back : List Char} (hanswer : answer.toList = front ++ (text ++ back))
    (hfront : ∀ c ∈ front, isSpace c = true) (hback : ∀ c ∈ back, isSpace c = true)
    (hfirst : ∃ c ∈ text.head?, isSpace c = false) (hlast : ∃ c ∈ text.getLast?, isSpace c = false) :
    strip answer = String.ofList text := by
  rw [strip, hanswer, trimBoth_append hfront hback hfirst hlast]

theorem braces_not_isSpace (inside : List Char) :
    (∃ c ∈ ('\x7b' :: (inside ++ ['\x7d'])).head?, isSpace c = false) ∧
      ∃ c ∈ ('\x7b' :: (inside ++ ['\x7d'])).getLast?, isSpace c = false := by
  refine ⟨⟨'\x7b', rfl, by decide⟩, '\x7d', ?_, by decide⟩
  rw [← List.cons_append, List.getLast?_append]
  rfl

theorem withoutFences_bare {front back : List Char}
    (hanswer : answer.toList = front ++ ('\x7b' :: (inside ++ ['\x7d']) ++ back))
    (hfront : ∀ c ∈ front, isSpace c = true) (hback : ∀ c ∈ back, isSpace c = true) :
    withoutFences answer = String.ofList ('\x7b' :: (inside ++ ['\x7d'])) := by
  obtain ⟨hfirst, hlast⟩ := braces_not_isSpace inside
  have hstrip := strip_of_blanks hanswer hfront hback hfirst hlast
  have hstart : startsWith fence (String.ofList ('\x7b' :: (inside ++ ['\x7d']))) = false := by
    rw [startsWith, String.toList_ofList]
    rfl
  rw [withoutFences, hstrip, hstart]
  simp

theorem strip_closing {indent : List Char} (hindent : ∀ c ∈ indent, isSpace c = true) :
    strip (String.ofList (indent ++ fence.toList)) = fence := by
  have hanswer : (String.ofList (indent ++ fence.toList)).toList = indent ++ (fence.toList ++ []) := by
    rw [String.toList_ofList, List.append_nil]
  rw [strip_of_blanks hanswer hindent (by simp) ⟨'\x60', rfl, by decide⟩ ⟨'\x60', rfl, by decide⟩]
  exact String.ofList_toList

/-- The lines of a fenced text. -/
theorem splitOn_fenced {info inner indent : List Char} (hinfo : '\n' ∉ info) (hindent : '\n' ∉ indent) :
    splitOn "\n" (String.ofList
        (fence.toList ++ (info ++ '\n' :: (inner ++ '\n' :: (indent ++ fence.toList))))) =
      String.ofList (fence.toList ++ info) ::
        ((inner.splitOn '\n').map String.ofList ++ [String.ofList (indent ++ fence.toList)]) := by
  have hfence : '\n' ∉ fence.toList := by decide
  have hopening : '\n' ∉ fence.toList ++ info := by
    rw [List.mem_append, not_or]
    exact ⟨hfence, hinfo⟩
  have hclosing : '\n' ∉ indent ++ fence.toList := by
    rw [List.mem_append, not_or]
    exact ⟨hindent, hfence⟩
  rw [splitOn, show "\n".toList = ['\n'] from rfl, String.toList_ofList, pieces_eq_splitOn,
    ← List.append_assoc, List.splitOn_append_cons_self_of_not_mem hopening, List.splitOn_append_cons_self,
    List.splitOn_eq_singleton hclosing]
  simp

theorem withoutClosingFence_append {lines : List String} {closing : String} (h : strip closing = fence) :
    withoutClosingFence (lines ++ [closing]) = lines := by
  simp [withoutClosingFence, h]

theorem withoutFences_fenced {front info above below indent back : List Char}
    (hanswer : answer.toList = front ++ (fence.toList ++ (info ++ '\n' ::
      (above ++ ('\x7b' :: (inside ++ ['\x7d']) ++ (below ++ '\n' :: (indent ++ fence.toList))))) ++ back))
    (hfront : ∀ c ∈ front, isSpace c = true) (hinfo : '\n' ∉ info)
    (habove : ∀ c ∈ above, isSpace c = true) (hbelow : ∀ c ∈ below, isSpace c = true)
    (hindent : ∀ c ∈ indent, isSpace c = true ∧ c ≠ '\n') (hback : ∀ c ∈ back, isSpace c = true) :
    withoutFences answer = String.ofList ('\x7b' :: (inside ++ ['\x7d'])) := by
  obtain ⟨hfirst, hlast⟩ := braces_not_isSpace inside
  let inner := above ++ ('\x7b' :: (inside ++ ['\x7d']) ++ below)
  have hbody : answer.toList = front ++
      ((fence.toList ++ (info ++ '\n' :: (inner ++ '\n' :: (indent ++ fence.toList)))) ++ back) := by
    simp [hanswer, inner]
  have hstrip := strip_of_blanks hbody hfront hback ⟨'\x60', rfl, by decide⟩
    ⟨'\x60', by simp [fence, List.getLast?_append, List.getLast?_cons], by decide⟩
  have hstart : startsWith fence (String.ofList
      (fence.toList ++ (info ++ '\n' :: (inner ++ '\n' :: (indent ++ fence.toList))))) = true := by
    rw [startsWith, String.toList_ofList, List.isPrefixOf_iff_prefix]
    exact List.prefix_append _ _
  have hlines := @splitOn_fenced info inner indent hinfo fun h => (hindent '\n' h).2 rfl
  have hclosing := strip_closing fun c hc => (hindent c hc).1
  have hjoin : join "\n" ((inner.splitOn '\n').map String.ofList) = String.ofList inner := by
    rw [join, ← String.toList_inj, String.toList_intercalate, List.map_map]
    simp [Function.comp_def, List.intercalate_splitOn]
  have hinner : strip (String.ofList inner) = String.ofList ('\x7b' :: (inside ++ ['\x7d'])) :=
    strip_of_blanks String.toList_ofList habove hbelow hfirst hlast
  rw [withoutFences, hstrip, if_pos hstart, hlines, List.drop_one, List.tail_cons,
    withoutClosingFence_append hclosing, hjoin, hinner]

/-- The text that is wrapped is what is left without fences. -/
theorem withoutFences_of_wraps (h : Wraps ('\x7b' :: (inside ++ ['\x7d'])) answer.toList) :
    withoutFences answer = String.ofList ('\x7b' :: (inside ++ ['\x7d'])) := by
  generalize hanswer : answer.toList = all at h
  cases h with
  | bare hfront hback => exact withoutFences_bare hanswer hfront hback
  | fenced hfront hinfo habove hbelow hindent hback =>
    exact withoutFences_fenced hanswer hfront hinfo habove hbelow hindent hback

end Wraps

/-- **Every text of an answer in the format, bare or fenced, is read as what it says**, but for a confidence
of zero, which counts as none. -/
theorem read_encoded {text : List Char} {answer : String} {confidence : Nat} (hcode : code ≠ "")
    (hconfidence : confidence ≤ 100) (htext : Encodes text code confidence warnings review)
    (hanswer : Wraps text answer.toList) :
    read answer = .ok ⟨.string code, if confidence = 0 then assumedConfidence else (confidence : Int),
      warnings, review⟩ := by
  obtain ⟨number, fields, inside, hnumber, hfields, hinside, rfl⟩ := htext
  have hparse : Json.parse (withoutFences answer) = .ok (.record fields) := by
    have hdenotes : Denotes (withoutFences answer).toList (.record (distinct fields)) := by
      rw [withoutFences_of_wraps hanswer, String.toList_ofList]
      exact .record hinside
    rw [parse_of_denotes hdenotes, distinct_eq_self (nodup_of_perm hfields)]
  have hlookup : (lookup? fields "code").getD .null = .string code := by
    rw [lookup?_of_mem (nodup_of_perm hfields) (hfields.mem_iff.2 (by simp [formatFields] :
      ("code", Json.string code) ∈ formatFields code number warnings review))]
    rfl
  have hhas : HasCode fields := by
    rw [HasCode, hlookup]
    simpa [isTruthy] using hcode
  rw [read_of_found (.whole hparse) hhas, hlookup]
  exact ofRecord_format hfields hnumber hconfidence

theorem read_encoded_fenced :
    read "\x60\x60\x60json\n\x7b\"confidence\": 8.5e1, \"code\":\"a\\n\\u0060\",\"warnings\":[\"w\"]\n,\"requiresReview\":true\x7d\n\x60\x60\x60" =
      .ok ⟨.string "a\n\x60", 85, ["w"], true⟩ := by
  have hnone : IsBlank [] := nofun
  have hspace : IsBlank [' '] := by simp [IsBlank, isJsonBlank]
  have hline : IsBlank ['\n'] := by simp [IsBlank, isJsonBlank]
  have hnumber : Denotes "8.5e1".toList (.float (Binary64.ofDecimal false 85 0)) :=
    @Denotes.number false ['8'] (some ['5']) (some 1) _ _
      (.mk (.inr ⟨'8', [], rfl, by decide, List.forall_mem_singleton.2 rfl⟩)
        (.some (List.cons_ne_nil _ _) (List.forall_mem_singleton.2 rfl))
        (@ExponentText.some 'e' [] ['1'] false (.inl rfl) .none (List.cons_ne_nil _ _)
          (List.forall_mem_singleton.2 rfl))) rfl
  have hcode : Denotes "\"a\\n\\u0060\"".toList (.string "a\n\x60") :=
    .string (.cons (.plain (by decide) (by decide) (by decide))
      (.cons (@Spelling.escape 'n' _ rfl) (.cons (@Spelling.unit '0' '0' '6' '0' '\x60' (by decide) rfl) .nil)))
  have hwarnings : Denotes "[\"w\"]".toList (.strings ["w"]) :=
    .list (@DenotesItems.last [] _ [] _ hnone (.string (@spells_plain ['w'] (by decide))) hnone)
  have hfields := DenotesFields.more hnone (@spells_plain "confidence".toList (by decide)) hnone hspace hnumber
    hnone (.more hspace (@spells_plain "code".toList (by decide)) hnone hnone hcode hnone
      (.more hnone (@spells_plain "warnings".toList (by decide)) hnone hnone hwarnings hline
        (.last hnone (@spells_plain "requiresReview".toList (by decide)) hnone hnone (.bool true) hnone)))
  have hdigits : digitsValue ['8', '5'] = 85 := rfl
  have hliteral : IsLiteral (.float (Binary64.ofDecimal false 85 0)) 85 :=
    ⟨false, ['8'], some ['5'], some 1, by simp [literalValue, hdigits], rfl⟩
  exact read_encoded (by decide) (by decide) ⟨_, _, _, hliteral, List.Perm.swap _ _ _, hfields, rfl⟩
    (@Wraps.fenced _ [] "json".toList [] [] [] [] nofun (by decide) nofun nofun nofun nofun)

/-- A confidence of zero is read as fifty. -/
theorem zero_confidence_lost :
    read "\x7b\"code\": \"x\", \"confidence\": 0, \"warnings\": [], \"requiresReview\": false\x7d" ≠
      .ok ⟨.string "x", 0, [], false⟩ := by
  have hfifty : (read
      "\x7b\"code\": \"x\", \"confidence\": 0, \"warnings\": [], \"requiresReview\": false\x7d").toOption.map
        (·.confidence) = some 50 := by
    decide +kernel
  intro h
  rw [h] at hfifty
  cases hfifty

end WebMigration.SemanticResult
