import WebMigration.Failure.Event
import WebMigration.Proofs.Text.Pieces
import Mathlib.Data.List.Perm.Basic
import Mathlib.Data.List.Nodup
import Mathlib.Data.String.Basic

/-!
# What a logged line shows

Data that agree except under the names of secrets are logged as the same line, in whatever order
their fields come, and everything else in them is in the line as it was.

Both are told by one relation between values: equal scalars, related items, and fields of the same
names whose values are related again, or only secrets.  What two secrets have to do with each other
is a parameter.  For two runs it is nothing; for a value and what the line shows of it, the second
is the text that stands for every secret.
-/

namespace WebMigration

namespace Json

/-! ## The order of fields -/

section Sorted

variable {f g : String × Json} {fs gs : List (String × Json)}

/-- A field and its value with the fields inside it in order. -/
def sortedField (f : String × Json) : String × Json := (f.1, f.2.sorted)

theorem sortedItems_eq (items : List Json) : sortedItems items = items.map sorted := by
  induction items with
  | nil => rfl
  | cons v rest ih => rw [sortedItems, ih, List.map_cons]

theorem sortedFields_eq (fields : List (String × Json)) :
    sortedFields fields = (fields.map sortedField).foldr insertSorted [] := by
  induction fields with
  | nil => rfl
  | cons f rest ih => rw [sortedFields, ih, List.map_cons, List.foldr_cons, sortedField]

theorem insertSorted_perm (f : String × Json) (fs : List (String × Json)) :
    (insertSorted f fs).Perm (f :: fs) := by
  induction fs with
  | nil => exact .refl _
  | cons g rest ih =>
    unfold insertSorted
    split
    · exact .refl _
    · exact (ih.cons g).trans (.swap f g rest)

theorem foldr_insertSorted_perm (fs : List (String × Json)) :
    (fs.foldr insertSorted []).Perm fs := by
  induction fs with
  | nil => exact .refl _
  | cons f rest ih => exact (insertSorted_perm f _).trans (ih.cons f)

/-- Fields of different names find their places in either order. -/
theorem insertSorted_comm (h : f.1 ≠ g.1) (fs : List (String × Json)) :
    insertSorted f (insertSorted g fs) = insertSorted g (insertSorted f fs) := by
  wlog hfg : f.1 < g.1 generalizing f g
  · exact (this h.symm (lt_of_le_of_ne (not_lt.1 hfg) h.symm)).symm
  have hgf : ¬ g.1 < f.1 := hfg.asymm
  induction fs with
  | nil => simp [insertSorted, hfg, hgf]
  | cons e rest ih =>
    by_cases hg : g.1 < e.1
    · have hf : f.1 < e.1 := hfg.trans hg
      simp [insertSorted, hg, hf, hfg, hgf]
    · by_cases hf : f.1 < e.1
      · simp [insertSorted, hg, hf, hgf]
      · simp [insertSorted, hg, hf, ih]

/-- The fields of a record with distinct names are sorted alike from whatever order. -/
theorem foldr_insertSorted_eq (names : (fs.map Prod.fst).Nodup) (h : fs.Perm gs) :
    fs.foldr insertSorted [] = gs.foldr insertSorted [] := by
  refine h.foldr_eq' (fun f hf g hg l => ?_) []
  by_cases hfg : f.1 = g.1
  · rw [List.inj_on_of_nodup_map names hf hg hfg]
  · exact insertSorted_comm (Ne.symm hfg) l

end Sorted

/-- A value that is neither a list nor a record. -/
def isScalar : Json → Bool
  | list _ => false
  | record _ => false
  | _ => true

theorem compact_of_isScalar {v : Json} (h : v.isScalar) : v.compact = v.scalar := by
  cases v <;> first | rfl | cases h

/-! ## Where parts of a value stand in its text -/

/-- A field as it is written. -/
def compactField (f : String × Json) : String := quote f.1 ++ ": " ++ f.2.compact

theorem join_cons_cons (separator part next : String) (rest : List String) :
    Text.join separator (part :: next :: rest) =
      part ++ separator ++ Text.join separator (next :: rest) := by
  rw [← String.toList_inj]
  simp [Text.join, String.toList_intercalate]

theorem compactItems_eq (items : List Json) :
    compactItems items = Text.join ", " (items.map compact) := by
  match items with
  | [] => rfl
  | [v] => simp [compactItems, Text.join]
  | v :: w :: rest =>
    rw [compactItems, compactItems_eq (w :: rest)]
    exact (join_cons_cons _ _ _ _).symm

theorem compactFields_eq (fields : List (String × Json)) :
    compactFields fields = Text.join ", " (fields.map compactField) := by
  match fields with
  | [] => rfl
  | [f] => simp [compactFields, compactField, Text.join]
  | f :: g :: rest =>
    rw [compactFields, compactFields_eq (g :: rest)]
    exact (join_cons_cons _ _ _ _).symm

theorem infix_join {part : String} {parts : List String} (h : part ∈ parts) (separator : String) :
    part.toList <:+: (Text.join separator parts).toList := by
  obtain ⟨front, back, rfl⟩ := List.append_of_mem h
  have sole : [part.toList] <:+: (front ++ part :: back).map String.toList :=
    ⟨front.map String.toList, back.map String.toList, by simp⟩
  have within : separator.toList.intercalate [part.toList] <:+: separator.toList.intercalate _ :=
    Text.intercalate_isInfix sole
  rwa [List.intercalate_singleton, ← String.toList_intercalate] at within

theorem compact_infix_list {v : Json} {items : List Json} (h : v ∈ items) :
    v.compact.toList <:+: (Json.list items).compact.toList := by
  have := infix_join (List.mem_map_of_mem (f := compact) h) ", "
  rw [← compactItems_eq] at this
  rw [compact, String.toList_append, String.toList_append]
  exact this.trans (List.infix_append _ _ _)

theorem compactField_infix_record {f : String × Json} {fields : List (String × Json)}
    (h : f ∈ fields) : (compactField f).toList <:+: (Json.record fields).compact.toList := by
  have := infix_join (List.mem_map_of_mem (f := compactField) h) ", "
  rw [← compactFields_eq] at this
  rw [compact, String.toList_append, String.toList_append]
  exact this.trans (List.infix_append _ _ _)

theorem quote_infix_field (f : String × Json) :
    (quote f.1).toList <:+: (compactField f).toList := by
  rw [compactField, String.toList_append, String.toList_append, List.append_assoc]
  exact (List.prefix_append _ _).isInfix

theorem compact_infix_field (f : String × Json) :
    f.2.compact.toList <:+: (compactField f).toList := by
  rw [compactField, String.toList_append]
  exact (List.suffix_append _ _).isInfix

end Json

namespace Event

open Json (isScalar)

/-! ## Agreement except under secrets -/

section Aside

variable (secret : Json → Json → Prop)
  (order : List (String × Json) → List (String × Json) → Prop)

mutual

/-- Two values that agree except under the names of secrets, where their values are related, and in
the order of fields. -/
inductive Aside : Json → Json → Prop
  | scalar {v : Json} (h : v.isScalar) : Aside v v
  | list {vs ws : List Json} (h : AsideItems vs ws) : Aside (.list vs) (.list ws)
  | record {fs hs gs : List (String × Json)} (h : AsideFields fs hs) (horder : order hs gs) :
      Aside (.record fs) (.record gs)

inductive AsideItems : List Json → List Json → Prop
  | nil : AsideItems [] []
  | cons {v w : Json} {vs ws : List Json} (h : Aside v w) (hrest : AsideItems vs ws) :
      AsideItems (v :: vs) (w :: ws)

inductive AsideFields : List (String × Json) → List (String × Json) → Prop
  | nil : AsideFields [] []
  | secret {name : String} {v w : Json} {fs gs : List (String × Json)}
      (hname : isSecret name = true) (h : secret v w) (hrest : AsideFields fs gs) :
      AsideFields ((name, v) :: fs) ((name, w) :: gs)
  | plain {name : String} {v w : Json} {fs gs : List (String × Json)}
      (hname : isSecret name = false) (h : Aside v w) (hrest : AsideFields fs gs) :
      AsideFields ((name, v) :: fs) ((name, w) :: gs)

end

end Aside

/-- Two values that differ only in what they hold under the names of secrets.  The fields of a
record have distinct names and may stand in any order. -/
def DifferInSecrets : Json → Json → Prop :=
  Aside (fun _ _ => True) fun fs gs => (fs.map Prod.fst).Nodup ∧ fs.Perm gs

/-- A value and the same value with the text for a secret in place of every secret. -/
def Masked : Json → Json → Prop := Aside (fun _ w => w = .string "[REDACTED]") List.Perm

/-- What the line shows of a value. -/
def shown (v : Json) : Json := (redact v).sorted

theorem redactItems_eq (items : List Json) : redactItems items = items.map redact := by
  induction items with
  | nil => rfl
  | cons v rest ih => rw [redactItems, ih, List.map_cons]

/-- What the line shows of a field, before the fields are put in order. -/
def shownField (f : String × Json) : String × Json :=
  (f.1, if isSecret f.1 then .string "[REDACTED]" else shown f.2)

theorem map_sortedField_redactFields (fields : List (String × Json)) :
    (redactFields fields).map Json.sortedField = fields.map shownField := by
  induction fields with
  | nil => rfl
  | cons f rest ih =>
    rw [redactFields, List.map_cons, ih, List.map_cons]
    by_cases h : isSecret f.1 <;> simp [Json.sortedField, shownField, shown, h, Json.sorted]

theorem shown_of_isScalar {v : Json} (h : v.isScalar) : shown v = v := by
  cases v <;> first | rfl | cases h

theorem shown_list (items : List Json) : shown (.list items) = .list (items.map shown) := by
  simp [shown, redact, Json.sorted, redactItems_eq, Json.sortedItems_eq]

theorem shown_record (fields : List (String × Json)) :
    shown (.record fields) = .record ((fields.map shownField).foldr Json.insertSorted []) := by
  simp only [shown, redact, Json.sorted, Json.sortedFields_eq, map_sortedField_redactFields]

/-! ## Two runs -/

mutual

/-- Values that differ only in secrets are shown alike. -/
theorem shown_eq {v w : Json} (h : DifferInSecrets v w) : shown v = shown w := by
  cases h with
  | scalar _ => rfl
  | list h => rw [shown_list, shown_list, map_shown_eq h]
  | @record fs hs gs h horder =>
    obtain ⟨names, perm⟩ := horder
    have names : ((hs.map shownField).map Prod.fst).Nodup := by
      simpa [Function.comp_def, shownField] using names
    rw [shown_record, shown_record, map_shownField_eq h,
      Json.foldr_insertSorted_eq names (perm.map shownField)]

theorem map_shown_eq {vs ws : List Json}
    (h : AsideItems (fun _ _ => True) (fun fs gs => (fs.map Prod.fst).Nodup ∧ fs.Perm gs) vs ws) :
    vs.map shown = ws.map shown := by
  cases h with
  | nil => rfl
  | cons h hrest => rw [List.map_cons, List.map_cons, shown_eq h, map_shown_eq hrest]

theorem map_shownField_eq {fs gs : List (String × Json)}
    (h : AsideFields (fun _ _ => True) (fun fs gs => (fs.map Prod.fst).Nodup ∧ fs.Perm gs) fs gs) :
    fs.map shownField = gs.map shownField := by
  cases h with
  | nil => rfl
  | secret hname _ hrest =>
    simp [shownField, hname, map_shownField_eq hrest]
  | plain hname h hrest =>
    simp [shownField, hname, shown_eq h, map_shownField_eq hrest]

end

/-! ## What is shown of one run -/

mutual

/-- A value is shown with its secrets masked. -/
theorem masked_shown (v : Json) : Masked v (shown v) := by
  match v with
  | .list items =>
    rw [shown_list]
    exact .list (maskedItems_shown items)
  | .record fields =>
    rw [shown_record]
    exact .record (maskedFields_shown fields) (Json.foldr_insertSorted_perm _).symm
  | .null | .bool _ | .int _ | .float _ | .string _ | .date _ =>
    rw [shown_of_isScalar rfl]
    exact .scalar rfl

theorem maskedItems_shown (items : List Json) :
    AsideItems (fun _ w => w = .string "[REDACTED]") List.Perm items (items.map shown) := by
  cases items with
  | nil => exact .nil
  | cons v rest => exact .cons (masked_shown v) (maskedItems_shown rest)

theorem maskedFields_shown (fields : List (String × Json)) :
    AsideFields (fun _ w => w = .string "[REDACTED]") List.Perm fields (fields.map shownField) := by
  cases fields with
  | nil => exact .nil
  | cons f rest =>
    rw [List.map_cons, shownField]
    cases h : isSecret f.1
    · exact .plain h (masked_shown f.2) (maskedFields_shown rest)
    · exact .secret h rfl (maskedFields_shown rest)

end

/-- The text of a key or a scalar in a value, outside of secrets. -/
inductive Bare : Json → String → Prop
  | scalar {v : Json} (h : v.isScalar) : Bare v v.scalar
  | item {items : List Json} {v : Json} {t : String} (hv : v ∈ items) (h : Bare v t) :
      Bare (.list items) t
  | key {fields : List (String × Json)} {f : String × Json} (hf : f ∈ fields) :
      Bare (.record fields) (Json.quote f.1)
  | field {fields : List (String × Json)} {f : String × Json} {t : String} (hf : f ∈ fields)
      (hname : isSecret f.1 = false) (h : Bare f.2 t) : Bare (.record fields) t

/-- Keys and scalars outside of secrets are written as they are. -/
theorem Bare.infix_compact {v : Json} {t : String} (h : Bare v t) :
    t.toList <:+: (shown v).compact.toList := by
  have written {fields : List (String × Json)} {f : String × Json} (hf : f ∈ fields) :
      (Json.compactField (shownField f)).toList <:+: (shown (.record fields)).compact.toList := by
    rw [shown_record]
    exact Json.compactField_infix_record
      ((Json.foldr_insertSorted_perm _).mem_iff.2 (List.mem_map_of_mem hf))
  induction h with
  | scalar h =>
    simp only [shown_of_isScalar h, Json.compact_of_isScalar h, List.infix_rfl]
  | item hv _ ih =>
    rw [shown_list]
    exact ih.trans (Json.compact_infix_list (List.mem_map_of_mem hv))
  | @key fields f hf => exact (Json.quote_infix_field (shownField f)).trans (written hf)
  | @field fields f t hf hname _ ih =>
    have value : (shownField f).2 = shown f.2 := by simp [shownField, hname]
    have inField : (shown f.2).compact.toList <:+: (Json.compactField (shownField f)).toList := by
      rw [← value]
      exact Json.compact_infix_field _
    exact ih.trans (inField.trans (written hf))

/-! ## The line -/

/-- **Secrets do not influence the log.**  Data that differ only in secrets give the same line.  The
line shows the data with its secrets masked, and every other key and scalar stands in it as it is
written. -/
theorem line_hides_secrets (level : LogLevel) (name : String) {data other : List (String × Json)}
    (h : DifferInSecrets (.record data) (.record other)) :
    line level name data = line level name other ∧
      (∃ v, Masked (.record data) v ∧ (line level name data).text = name ++ " " ++ v.compact) ∧
      ∀ t, Bare (.record data) t → t.toList <:+: (line level name data).text.toList := by
  refine ⟨?_, ⟨_, masked_shown _, rfl⟩, fun t ht => ?_⟩
  · show LogLine.mk level (name ++ " " ++ (shown (.record data)).compact) = _
    rw [shown_eq h]
    rfl
  · show t.toList <:+: (name ++ " " ++ (shown (.record data)).compact).toList
    rw [String.toList_append]
    exact ht.infix_compact.trans (List.suffix_append _ _).isInfix

theorem line_hides_secrets_nested :
    DifferInSecrets
        (.record [("Token", .string "abc"),
          ("steps", .list [.record [("name", .string "clone"), ("API_KEY", .int 1)]])])
        (.record [("steps", .list [.record [("API_KEY", .list [.null]),
          ("name", .string "clone")]]), ("Token", .record [])]) ∧
      line .info "job" [("Token", .string "abc"),
          ("steps", .list [.record [("name", .string "clone"), ("API_KEY", .int 1)]])] =
        line .info "job" [("steps", .list [.record [("API_KEY", .list [.null]),
          ("name", .string "clone")]]), ("Token", .record [])] := by
  have step : DifferInSecrets (.record [("name", .string "clone"), ("API_KEY", .int 1)])
      (.record [("API_KEY", .list [.null]), ("name", .string "clone")]) :=
    .record (.plain (by decide) (.scalar rfl) (.secret (by decide) trivial .nil))
      ⟨by decide, .swap _ _ _⟩
  refine (and_iff_left_of_imp fun differ => (line_hides_secrets .info "job" differ).1).2 ?_
  exact .record (.secret (by decide) trivial (.plain (by decide) (.list (.cons step .nil)) .nil))
    ⟨by decide, .swap _ _ _⟩

end Event

end WebMigration
