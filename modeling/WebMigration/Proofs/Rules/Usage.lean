import Mathlib.Data.List.Nodup
import WebMigration.Proofs.Rules.Suppression
import WebMigration.Proofs.Module.Source
import WebMigration.Proofs.Syntax.Boundary
import WebMigration.Proofs.Text.Lines

/-!
# Uses of names in the tree and in the text
-/

namespace WebMigration

namespace Usage

open Syntax Syntax.Character
open Text (isLineEnd afterLines InStep)
open WebMigration.Module (Source)

/-! ### Names -/

/-- The characters of an identifier. -/
structure IsIdentifier (cs : List Char) : Prop where
  first : ∃ c ∈ cs.head?, isIdentifierStart c = true
  parts : ∀ c ∈ cs, isIdentifierPart c = true ∧ isLineEnd c = false

/-- The characters of an identifier, or of several with dots between them. -/
inductive IsName : List Char → Prop
  | identifier {cs} : IsIdentifier cs → IsName cs
  | member {cs rest} : IsIdentifier cs → IsName rest → IsName (cs ++ '.' :: rest)

section Names

variable {word front back : List Char} {c : Char}

/-- The blanks and control characters by their numbers. -/
theorem mem_of_isBlank (h : c ≤ '\x1f' ∨ isBlank c = true) :
    c.toNat ∈ List.range 33 ++ List.range' 0x2000 12 ++
      [0xa0, 0x1680, 0x2028, 0x2029, 0x202f, 0x205f, 0x2060, 0x3000, 0xfeff] := by
  have hnumber : ∀ d : Char, c = d ↔ c.toNat = d.toNat := fun d => Char.toNat_inj.symm
  have hle : ∀ d e : Char, d ≤ e ↔ d.toNat ≤ e.toNat := fun _ _ => UInt32.le_iff_toNat_le
  simp only [isBlank, isSpaceSeparator, Bool.or_eq_true, Bool.and_eq_true, decide_eq_true_eq,
    beq_iff_eq, hle, hnumber] at h
  simp only [List.mem_append, List.mem_range, List.mem_range'_1, List.mem_cons, List.not_mem_nil,
    or_false]
  simp only [Char.reduceToNat] at h
  omega

theorem not_continuesName (h : isIdentifierPart c = false) : continuesName c = false := by
  -- a check of the list: a check of all characters would be picked for the bounded statement
  have hpunctuation : punctuation.all (fun d => !continuesName d) = true := by decide +kernel
  have hnumber : ∀ n ∈ List.range 33 ++ List.range' 0x2000 12 ++
      [0xa0, 0x1680, 0x2028, 0x2029, 0x202f, 0x205f, 0x2060, 0x3000, 0xfeff],
      continuesName (Char.ofNat n) = false := by
    decide +kernel
  have hblank : c ≤ '\x1f' ∨ isBlank c = true → continuesName c = false := by
    intro hc
    have hfalse := hnumber _ (mem_of_isBlank hc)
    rwa [Char.ofNat_toNat] at hfalse
  rw [isIdentifierPart, Bool.and_eq_false_iff, Bool.and_eq_false_iff, decide_eq_false_iff_not,
    Char.not_lt, Bool.not_eq_false', Bool.not_eq_false'] at h
  rcases h with (h | h) | h
  · exact hblank (.inl h)
  · exact hblank (.inr h)
  · have hc : c ∈ punctuation := List.contains_iff_mem.1 (isPunctuation_eq c ▸ h)
    simpa using List.all_eq_true.1 hpunctuation c hc

theorem IsIdentifier.ne_nil (h : IsIdentifier word) : word ≠ [] := by
  rintro rfl
  obtain ⟨c, hc, -⟩ := h.first
  cases hc

theorem IsName.ne_nil (h : IsName word) : word ≠ [] := by
  cases h with
  | identifier h => exact h.ne_nil
  | member h => exact fun hnil => h.ne_nil (List.append_eq_nil_iff.1 hnil).1

theorem IsName.first (h : IsName word) : ∃ c ∈ word.head?, isIdentifierStart c = true := by
  cases h with
  | identifier h => exact h.first
  | member h =>
    obtain ⟨c, hc, hstart⟩ := h.first
    exact ⟨c, by rw [List.head?_append, hc]; rfl, hstart⟩

theorem IsName.noLineEnd (h : IsName word) : ∀ c ∈ word, isLineEnd c = false := by
  induction h with
  | identifier h => exact fun c hc => (h.parts c hc).2
  | member h _ ih =>
    intro c hc
    rcases List.mem_append.1 hc with hc | hc
    · exact (h.parts c hc).2
    · rcases List.mem_cons.1 hc with rfl | hc
      · decide
      · exact ih c hc

/-- Every character of a name is one of an identifier, or a dot behind one. -/
theorem IsName.part_or_dot (h : IsName word) {front back : List Char} (hword : word = front ++ c :: back) :
    isIdentifierPart c = true ∨
      c = '.' ∧ ∃ rest d, front = rest ++ [d] ∧ isIdentifierPart d = true := by
  induction h generalizing front with
  | @identifier cs h =>
    exact .inl (h.parts c (hword ▸ List.mem_append_right _ List.mem_cons_self)).1
  | @member cs rest h _ ih =>
    -- The character is behind the first identifier, where its dot is the first one, or in it.
    rcases List.append_eq_append_iff.1 hword with ⟨more, rfl, hrest⟩ | ⟨more, rfl, hrest⟩
    · cases more with
      | nil =>
        obtain ⟨rfl, -⟩ := List.cons.inj hrest
        obtain ⟨init, d, rfl⟩ := (List.eq_nil_or_concat cs).resolve_left h.ne_nil
        rw [List.concat_eq_append] at h ⊢
        exact .inr ⟨rfl, init, d, List.append_nil _,
          (h.parts d (List.mem_append_right _ List.mem_cons_self)).1⟩
      | cons e more =>
        obtain ⟨rfl, htail⟩ := List.cons.inj hrest
        refine (ih htail).imp_right fun ⟨hdot, init, d, hmore, hd⟩ => ⟨hdot, cs ++ '.' :: init, d, ?_, hd⟩
        rw [hmore, List.append_assoc, List.cons_append]
    · cases more with
      | nil =>
        obtain ⟨rfl, -⟩ := List.cons.inj hrest
        obtain ⟨init, d, rfl⟩ := (List.eq_nil_or_concat front).resolve_left
          (by simpa using h.ne_nil)
        rw [List.concat_eq_append] at h ⊢
        refine .inr ⟨rfl, init, d, rfl, (h.parts d ?_).1⟩
        simp
      | cons e more =>
        obtain ⟨rfl, -⟩ := List.cons.inj hrest
        exact .inl (h.parts c (by simp)).1

end Names

/-! ### The scan of the text -/

/-- A name stands apart from what comes before and after it. -/
structure Apart (front word back : List Char) : Prop where
  loose : Loose front
  free : '.' ∈ word → Free front
  shut : Shut back

section Scan

variable {word front back rest : List Char} {skip column number : Nat} {before : Option Char}

theorem Apart.of_suffix (h : Apart front word back) (hrest : rest <:+ front) : Apart rest word back :=
  ⟨h.loose.of_suffix hrest, fun hdot => (h.free hdot).of_suffix hrest, h.shut⟩

/-- A name that stands apart is not begun by what comes before it. -/
theorem Apart.eq_of_prefix (h : Apart front word back) (hword : IsName word) (hne : front ≠ [])
    (hpre : front <+: word) : front = word := by
  obtain ⟨tail, rfl⟩ := hpre
  cases tail with
  | nil => exact (List.append_nil front).symm
  | cons d tail =>
    exfalso
    obtain ⟨init, c, rfl⟩ := (List.eq_nil_or_concat front).resolve_left hne
    rw [List.concat_eq_append] at h hword
    rcases hword.part_or_dot (List.append_assoc init [c] (d :: tail)) with hc | ⟨rfl, init, e, rfl, he⟩
    · exact absurd (h.loose c (by rw [List.getLast?_concat]; rfl)) (by rw [hc]; decide)
    · have hloose := (h.free (by simp)).dot _ rfl
      exact absurd (hloose e (by rw [List.getLast?_concat]; rfl)) (by rw [he]; decide)

theorem isWholeWord_of_apart (word : List Char) (h : Shut back) (hbefore : ∀ c ∈ before, continuesName c = false) :
    isWholeWord word before (word ++ back) = true := by
  have hleft : (before.map continuesName).getD false = false := by
    cases before with
    | none => rfl
    | some c => exact hbefore c rfl
  have hright : (back.head?.map continuesName).getD false = false := by
    cases hback : back.head? with
    | none => rfl
    | some c => exact not_continuesName (h c hback)
  rw [isWholeWord, List.drop_left, hleft, hright, List.isPrefixOf_iff_prefix.2 (List.prefix_append _ _)]
  rfl

/-- The scan of a line finds a name that stands apart. -/
theorem mem_columnsFrom (h : Apart front word back) (hword : IsName word)
    (hbefore : front = [] → ∀ c ∈ before, continuesName c = false) (hskip : skip ≤ front.length) :
    column + front.length ∈ columnsFrom word skip before column (front ++ (word ++ back)) := by
  induction front generalizing skip before column with
  | nil =>
    obtain ⟨c, rest, rfl⟩ := List.exists_cons_of_ne_nil hword.ne_nil
    obtain rfl := Nat.le_zero.1 hskip
    have hwhole := isWholeWord_of_apart (c :: rest) h.shut (hbefore rfl)
    rw [List.nil_append, List.cons_append, columnsFrom, ← List.cons_append, if_pos hwhole]
    exact List.mem_cons_self
  | cons c front ih =>
    have hrest : Apart front word back := h.of_suffix (List.suffix_cons c front)
    have hlast : front = [] → ∀ d ∈ some c, continuesName d = false := by
      rintro rfl d ⟨⟩
      exact not_continuesName (h.loose c rfl)
    have hcolumn : column + (c :: front).length = column + 1 + front.length := by
      rw [List.length_cons]
      omega
    rw [List.cons_append, hcolumn]
    cases skip with
    | succ skip => exact ih hrest hlast (Nat.le_of_succ_le_succ hskip)
    | zero =>
      rw [columnsFrom]
      split
      · -- An occurrence here ends before the name, or else the name would begin with what precedes it.
        rename_i hwhole
        refine List.mem_cons_of_mem _ (ih hrest hlast ?_)
        simp only [isWholeWord, Bool.and_eq_true, List.isPrefixOf_iff_prefix] at hwhole
        refine Nat.not_lt.1 fun hlong => ?_
        have hlength : (c :: front).length ≤ word.length := by
          rw [List.length_cons]
          omega
        have hpre : c :: front <+: word :=
          List.prefix_of_prefix_length_le ⟨word ++ back, rfl⟩ hwhole.1.1 hlength
        rw [← h.eq_of_prefix hword nofun hpre, List.length_cons] at hlong
        omega
      · exact ih hrest hlast (Nat.zero_le _)

/-! ### Each occurrence is found once -/

theorem le_of_mem_columnsFrom {c : Nat} (h : c ∈ columnsFrom word skip before column rest) : column ≤ c := by
  induction rest generalizing skip before column with
  | nil =>
    rw [columnsFrom] at h
    split at h
    · exact Nat.le_of_eq (List.mem_singleton.1 h).symm
    · cases h
  | cons d rest ih =>
    cases skip with
    | succ skip => exact Nat.le_of_succ_le (ih h)
    | zero =>
      rw [columnsFrom] at h
      split at h
      · rcases List.mem_cons.1 h with rfl | h
        · exact Nat.le_refl _
        · exact Nat.le_of_succ_le (ih h)
      · exact Nat.le_of_succ_le (ih h)

theorem nodup_columnsFrom (word : List Char) (skip : Nat) (before : Option Char) (column : Nat)
    (rest : List Char) : (columnsFrom word skip before column rest).Nodup := by
  induction rest generalizing skip before column with
  | nil =>
    rw [columnsFrom]
    split
    · exact List.nodup_singleton _
    · exact List.nodup_nil
  | cons d rest ih =>
    cases skip with
    | succ skip => exact ih _ _ _
    | zero =>
      rw [columnsFrom]
      split
      · refine List.nodup_cons.2 ⟨fun h => ?_, ih _ _ _⟩
        exact Nat.lt_irrefl column (le_of_mem_columnsFrom h)
      · exact ih _ _ _

theorem le_of_mem_inLines {texts : List String} {p : Place} (h : p ∈ inLines word number texts) :
    number ≤ p.line := by
  induction texts generalizing number with
  | nil => cases h
  | cons line texts ih =>
    rcases List.mem_append.1 h with h | h
    · obtain ⟨c, -, rfl⟩ := List.mem_map.1 h
      exact Nat.le_refl _
    · exact Nat.le_of_succ_le (ih h)

/-- The scan of a text finds no place twice. -/
theorem nodup_inText (code name : String) : (inText code name).Nodup := by
  have hlines : ∀ (texts : List String) (number : Nat), (inLines name.toList number texts).Nodup := by
    intro texts
    induction texts with
    | nil => exact fun _ => List.nodup_nil
    | cons line texts ih =>
      intro number
      refine List.nodup_append'.2 ⟨(nodup_columnsFrom _ _ _ _ _).map fun a b hab => ?_, ih _, ?_⟩
      · exact congrArg Place.column hab
      · rintro p hp hlater
        obtain ⟨c, -, rfl⟩ := List.mem_map.1 hp
        exact Nat.lt_irrefl number (le_of_mem_inLines hlater)
  exact hlines _ _

/-! ### The places where a name stands -/

/-- The place of the next character after a text, in lines as the scan counts them. -/
def placeAfter (front : List Char) : Place :=
  ⟨(afterLines 1 [] front).1, (afterLines 1 [] front).2.length + 1⟩

theorem mem_inLines (number : Nat) (complete more : List String) {line : String} {c : Nat}
    (h : c ∈ columnsFrom word 0 none 1 line.toList) :
    ⟨number + complete.length, c⟩ ∈ inLines word number (complete ++ line :: more) := by
  induction complete generalizing number with
  | nil => exact List.mem_append_left _ (List.mem_map_of_mem h)
  | cons first complete ih =>
    rw [List.cons_append, inLines, List.length_cons, ← Nat.add_assoc, Nat.add_right_comm]
    exact List.mem_append_right _ (ih _)

/-- No line is parted in front of a name. -/
theorem IsName.parted {name : List Char} (h : IsName name) (front back : List Char) :
    Text.Parted front (name ++ back) := by
  obtain ⟨c, hc, -⟩ := h.first
  intro _ hhead
  rw [List.head?_append, hc] at hhead
  obtain rfl := Option.some.inj hhead
  exact absurd (h.noLineEnd '\n' (List.mem_of_mem_head? hc)) (by decide)

/-- The rest of a line goes on with an identifier only if the text does. -/
theorem shut_lineRest (h : Shut back) : Shut (Text.lineRest back) := by
  intro d hd
  refine h d ?_
  cases back with
  | nil => cases hd
  | cons e back =>
    rw [Text.lineRest, List.takeWhile_cons] at hd
    split at hd
    · exact hd
    · cases hd

/-- The scan of a text finds a name that stands apart, at its place. -/
theorem placeAfter_mem_inText {code name : String} (h : Apart front name.toList back)
    (hword : IsName name.toList) (hcode : code.toList = front ++ (name.toList ++ back)) :
    placeAfter front ∈ inText code name := by
  obtain ⟨complete, hlines, hcount⟩ := Text.linesAfter_append (hword.parted front back) 1 []
  have hsuffix := Text.afterLines_suffix 1 [] front
  have hcurrent : ∀ c ∈ (afterLines 1 [] front).2, isLineEnd c = false :=
    Text.isLineEnd_of_mem_afterLines (fun _ h => absurd h List.not_mem_nil) 1 front
  rw [placeAfter, ← hcount]
  generalize (afterLines 1 [] front).2 = current at hlines hcurrent hsuffix ⊢
  have hne : name.toList ++ back ≠ [] := fun hnil => hword.ne_nil (List.append_eq_nil_iff.1 hnil).1
  obtain ⟨more, hmore⟩ := Text.linesAfter_eq_cons hcurrent (.inr hne)
  have hrest : Text.lineRest (name.toList ++ back) = name.toList ++ Text.lineRest back :=
    List.takeWhile_append_of_pos fun d hd => by rw [hword.noLineEnd d hd]; rfl
  have happart : Apart current.reverse name.toList (Text.lineRest back) :=
    ⟨(h.of_suffix hsuffix).loose, (h.of_suffix hsuffix).free, shut_lineRest h.shut⟩
  have hfound : 1 + current.reverse.length ∈ columnsFrom name.toList 0 none 1
      (String.ofList (current.reverse ++ (name.toList ++ Text.lineRest back))).toList := by
    rw [String.toList_ofList]
    exact mem_columnsFrom happart hword (fun _ _ hc => absurd hc (Option.not_mem_none _)) (Nat.zero_le _)
  have hall : Text.lines code = complete.map (fun l => String.ofList (Text.withoutEnd l)) ++
      String.ofList (current.reverse ++ (name.toList ++ Text.lineRest back)) :: more.map String.ofList := by
    rw [Text.lines, Text.linesWithEnds, hcode, hlines, List.map_append, ← hrest, ← List.map_cons, ← hmore,
      List.map_map]
    rfl
  rw [inText, hall]
  have hplace := mem_inLines 1 (complete.map fun l => String.ofList (Text.withoutEnd l))
    (more.map String.ofList) hfound
  rwa [List.length_map, List.length_reverse, Nat.add_comm 1 current.length] at hplace

end Scan

end Usage

end WebMigration
