import WebMigration.Proofs.Text.Lines

/-!
# Texts made of lines

Every line of a text but the last has an end, and the last one need not have one.  Such lines put together
are a text that has them as its lines.
-/

namespace WebMigration

/-- Every item has one property, but the last may have another one instead. -/
inductive UpToLast {α : Type} (P Q : α → Prop) : List α → Prop
  | nil : UpToLast P Q []
  | last {a : α} (h : Q a) : UpToLast P Q [a]
  | cons {a : α} {rest : List α} (h : P a) (hrest : UpToLast P Q rest) : UpToLast P Q (a :: rest)

namespace UpToLast

variable {α β : Type} {P Q : α → Prop} {P' Q' : β → Prop} {front back items : List α}

theorem append (hfront : ∀ a ∈ front, P a) (hback : UpToLast P Q back) : UpToLast P Q (front ++ back) := by
  induction front with
  | nil => exact hback
  | cons a rest ih =>
    exact .cons (hfront a List.mem_cons_self) (ih fun b hb => hfront b (List.mem_cons_of_mem _ hb))

theorem of_append_right (h : UpToLast P Q (front ++ back)) : UpToLast P Q back := by
  induction front with
  | nil => exact h
  | cons a rest ih =>
    generalize hitems : a :: rest ++ back = items at h
    cases h with
    | nil => cases hitems
    | last ha =>
      have hnil := (List.append_eq_nil_iff.1 (List.cons.inj hitems).2).2
      rw [hnil]
      exact .nil
    | cons ha hrest =>
      rw [← (List.cons.inj hitems).2] at hrest
      exact ih hrest

/-- An item with others behind it is not the last. -/
theorem forall_of_append (h : UpToLast P Q (front ++ back)) (hback : back ≠ []) : ∀ a ∈ front, P a := by
  induction front with
  | nil => exact nofun
  | cons a rest ih =>
    generalize hitems : a :: rest ++ back = items at h
    cases h with
    | nil => cases hitems
    | last ha => exact absurd (List.append_eq_nil_iff.1 (List.cons.inj hitems).2).2 hback
    | cons ha hrest =>
      obtain ⟨rfl, rfl⟩ := List.cons.inj hitems
      exact List.forall_mem_cons.2 ⟨ha, ih hrest⟩

theorem forall_mem {R : α → Prop} (h : UpToLast P Q items) (hfirst : ∀ a, P a → R a)
    (hlast : ∀ a, Q a → R a) : ∀ a ∈ items, R a := by
  induction h with
  | nil => exact nofun
  | last ha => exact List.forall_mem_singleton.2 (hlast _ ha)
  | cons ha hrest ih => exact List.forall_mem_cons.2 ⟨hfirst _ ha, ih⟩

theorem sublist (h : UpToLast P Q items) {some : List α} (hsome : some.Sublist items) : UpToLast P Q some := by
  induction h generalizing some with
  | nil => rw [List.sublist_nil.1 hsome]; exact .nil
  | last ha =>
    rcases List.sublist_cons_iff.1 hsome with hnil | ⟨more, rfl, hmore⟩
    · rw [List.sublist_nil.1 hnil]
      exact .nil
    · rw [List.sublist_nil.1 hmore]
      exact .last ha
  | cons ha hrest ih =>
    rcases List.sublist_cons_iff.1 hsome with hrest | ⟨more, rfl, hmore⟩
    · exact ih hrest
    · exact .cons ha (ih hmore)

/-- Items each made into several. -/
theorem flatMap {f : α → List β} (h : UpToLast P Q items) (hfirst : ∀ a, P a → ∀ b ∈ f a, P' b)
    (hlast : ∀ a, Q a → UpToLast P' Q' (f a)) : UpToLast P' Q' (items.flatMap f) := by
  induction h with
  | nil => exact .nil
  | last ha => simpa using hlast _ ha
  | cons ha hrest ih => exact .append (hfirst _ ha) ih

theorem map {f : α → β} (h : UpToLast P Q items) (hfirst : ∀ a, P a → P' (f a)) (hlast : ∀ a, Q a → Q' (f a)) :
    UpToLast P' Q' (items.map f) := by
  induction h with
  | nil => exact .nil
  | last ha => exact .last (hlast _ ha)
  | cons ha hrest ih => exact .cons (hfirst _ ha) ih

theorem imp {P' Q' : α → Prop} (h : UpToLast P Q items) (hfirst : ∀ a, P a → P' a) (hlast : ∀ a, Q a → Q' a) :
    UpToLast P' Q' items := by
  simpa using @map α α P Q P' Q' items id h hfirst hlast

theorem of_map {f : α → β} (h : UpToLast P' Q' (items.map f)) :
    UpToLast (fun a => P' (f a)) (fun a => Q' (f a)) items := by
  induction items with
  | nil => exact .nil
  | cons a rest ih =>
    cases rest with
    | nil =>
      cases h with
      | last ha => exact .last ha
      | cons ha hrest => exact .cons ha .nil
    | cons b more =>
      cases h with
      | cons ha hrest => exact .cons ha (ih hrest)

/-- Items taken in groups. -/
theorem of_flatten {groups : List (List α)} (h : UpToLast P Q groups.flatten) (hgroups : [] ∉ groups) :
    UpToLast (fun group => ∀ a ∈ group, P a) (UpToLast P Q) groups := by
  induction groups with
  | nil => exact .nil
  | cons group rest ih =>
    have hrest : [] ∉ rest := fun hmem => hgroups (List.mem_cons_of_mem _ hmem)
    rw [List.flatten_cons] at h
    cases rest with
    | nil =>
      rw [List.flatten_nil, List.append_nil] at h
      exact .last h
    | cons next rest =>
      have hnext : (next :: rest).flatten ≠ [] := by
        intro hempty
        exact hrest (List.flatten_eq_nil_iff.1 hempty next List.mem_cons_self ▸ List.mem_cons_self)
      exact .cons (h.forall_of_append hnext) (ih h.of_append_right hrest)

end UpToLast

namespace Text

variable {line body rest start : List Char} {lines : List (List Char)}

/-- A line with its end. -/
inductive IsEnded : List Char → Prop
  | mk {body ends : List Char} (hbody : ∀ c ∈ body, isLineEnd c = false)
      (hends : ends = ['\r', '\n'] ∨ ∃ c, isLineEnd c = true ∧ ends = [c]) : IsEnded (body ++ ends)

/-- A line that has no end. -/
def IsOpen (line : List Char) : Prop := line ≠ [] ∧ ∀ c ∈ line, isLineEnd c = false

theorem IsEnded.ne_nil (h : IsEnded line) : line ≠ [] := by
  obtain ⟨hbody, rfl | ⟨c, hc, rfl⟩⟩ := h <;> simp

theorem isLineEnd_of_any {text : List Char} (h : text.any isLineEnd = false) :
    ∀ c ∈ text, isLineEnd c = false := fun c hc => Bool.eq_false_iff.2 (List.any_eq_false.1 h c hc)

/-- A line with something before it that has no line end. -/
theorem IsEnded.append (hbody : ∀ c ∈ body, isLineEnd c = false) (h : IsEnded line) : IsEnded (body ++ line) := by
  obtain ⟨hline, hends⟩ := h
  rw [← List.append_assoc]
  refine .mk ?_ hends
  intro c hc
  exact (List.mem_append.1 hc).elim (hbody c) (hline c)

theorem IsOpen.append (hbody : ∀ c ∈ body, isLineEnd c = false) (h : IsOpen line) : IsOpen (body ++ line) :=
  ⟨by simp [h.1], fun c hc => (List.mem_append.1 hc).elim (hbody c) (h.2 c)⟩

/-- The last character of a line tells whether it has an end. -/
theorem IsEnded.getLast (h : IsEnded line) : line.getLast?.any isLineEnd = true := by
  obtain ⟨hbody, rfl | ⟨c, hc, rfl⟩⟩ := h
  · rw [List.getLast?_append]
    exact isLineEnd_lineFeed
  · rw [List.getLast?_append]
    exact hc

theorem IsOpen.getLast (h : IsOpen line) : line.getLast?.any isLineEnd = false := by
  cases hlast : line.getLast? with
  | none => rfl
  | some c => exact h.2 c (List.mem_of_getLast? hlast)

/-- All lines of a text but the last have an end. -/
theorem upToLast_linesAfter {current cs : List Char} (hcurrent : ∀ c ∈ current, isLineEnd c = false) :
    UpToLast IsEnded IsOpen (linesAfter current cs) := by
  have hreverse : ∀ {current : List Char}, (∀ c ∈ current, isLineEnd c = false) →
      ∀ c ∈ current.reverse, isLineEnd c = false := fun h c hc => h c (List.mem_reverse.1 hc)
  fun_induction linesAfter current cs with
  | case1 current hempty => exact .nil
  | case2 current hempty =>
    refine .last ⟨?_, hreverse hcurrent⟩
    rwa [ne_eq, List.reverse_eq_nil_iff, ← List.isEmpty_iff]
  | case3 current r ih =>
    rw [List.reverse_cons, List.reverse_cons, List.append_assoc]
    exact .cons (.mk (hreverse hcurrent) (.inl rfl)) (ih (List.forall_mem_nil _))
  | case4 current c r hpair hend ih =>
    rw [List.reverse_cons]
    exact .cons (.mk (hreverse hcurrent) (.inr ⟨c, hend, rfl⟩)) (ih (List.forall_mem_nil _))
  | case5 current c r hpair hend ih =>
    exact ih (List.forall_mem_cons.2 ⟨Bool.not_eq_true _ ▸ hend, hcurrent⟩)

theorem linesAfter_body (hbody : ∀ c ∈ body, isLineEnd c = false) (current : List Char) :
    linesAfter current (body ++ rest) = linesAfter (body.reverse ++ current) rest := by
  induction body generalizing current with
  | nil => rfl
  | cons c body ih =>
    obtain ⟨hc, hbody⟩ := List.forall_mem_cons.1 hbody
    have hno : c = '\r' → (body ++ rest).head? ≠ some '\n' := by
      rintro rfl
      cases isLineEnd_carriageReturn.symm.trans hc
    rw [List.cons_append, linesAfter_cons hno, if_neg (by simp [hc]), ih hbody, List.reverse_cons,
      List.append_assoc, List.singleton_append]

theorem linesWithEnds_ended (h : IsEnded line) (hparted : Parted line rest) :
    linesWithEnds (line ++ rest) = line :: linesWithEnds rest := by
  obtain @⟨body, ends, hbody, hends⟩ := h
  rw [linesWithEnds, List.append_assoc, linesAfter_body hbody, List.append_nil]
  rcases hends with rfl | ⟨c, hc, rfl⟩
  · rw [List.cons_append, List.cons_append, linesAfter]
    simp [linesWithEnds]
  · have hno : c = '\r' → rest.head? ≠ some '\n' := by
      rintro rfl
      exact hparted (by simp)
    rw [List.singleton_append, linesAfter_cons hno, if_pos hc]
    simp [linesWithEnds]

theorem linesWithEnds_open (h : IsOpen line) : linesWithEnds line = [line] := by
  have hbody := @linesAfter_body line [] h.2 []
  rw [List.append_nil, List.append_nil] at hbody
  rw [linesWithEnds, hbody, linesAfter, if_neg (by simpa using h.1), List.reverse_reverse]

/-- Lines of which no one starts with a line feed are the lines of the text that they make up. -/
theorem linesWithEnds_flatten (h : UpToLast IsEnded IsOpen lines)
    (hstart : ∀ line ∈ lines, line.head? ≠ some '\n') : linesWithEnds lines.flatten = lines := by
  induction h with
  | nil => rfl
  | last hline => simpa using linesWithEnds_open hline
  | @cons line rest hline hrest ih =>
    obtain ⟨-, hlater⟩ := List.forall_mem_cons.1 hstart
    have hparted : Parted line rest.flatten := by
      rintro -
      have hnonempty := hrest.forall_mem (fun _ h => h.ne_nil) fun _ h => h.1
      cases rest with
      | nil => nofun
      | cons next rest =>
        obtain ⟨c, more, rfl⟩ := List.exists_cons_of_ne_nil (hnonempty next List.mem_cons_self)
        exact hlater (c :: more) List.mem_cons_self
    rw [List.flatten_cons, linesWithEnds_ended hline hparted, ih hlater]

/-- A line starts with the same characters with its end and without it. -/
theorem isPrefixOf_withoutEnd (hstart : ∀ c ∈ start, isLineEnd c = false) (line : List Char) :
    start.isPrefixOf (withoutEnd line) = start.isPrefixOf line := by
  rw [Bool.eq_iff_iff, List.isPrefixOf_iff_prefix, List.isPrefixOf_iff_prefix]
  have hwhole : withoutEnd line <+: line := by
    rw [withoutEnd, dropEndWhile, ← List.reverse_suffix, List.reverse_reverse]
    exact List.dropWhile_suffix _
  refine ⟨fun h => h.trans hwhole, ?_⟩
  rintro ⟨rest, rfl⟩
  have hkept : start.reverse.dropWhile isLineEnd = start.reverse := by
    cases hreverse : start.reverse with
    | nil => rfl
    | cons c more =>
      have hc := hstart c (List.mem_reverse.1 (hreverse ▸ List.mem_cons_self))
      rw [List.dropWhile_cons, hc]
      rfl
  rw [withoutEnd, dropEndWhile, List.reverse_append, List.dropWhile_append, hkept]
  split
  · exact ⟨[], by rw [List.append_nil, List.reverse_reverse]⟩
  · rw [List.reverse_append, List.reverse_reverse]
    exact List.prefix_append _ _

end Text

end WebMigration
