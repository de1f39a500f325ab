import WebMigration.Spec.Basic

/-!
# Tables

Reading a table after an entry was put into it.
-/

namespace WebMigration.Table

variable {α : Type}

@[simp] theorem get?_nil (name : String) : get? ([] : Table α) name = none := rfl

theorem get?_cons (e : String × α) (t : Table α) (name : String) :
    get? (e :: t) name = if e.1 = name then some e.2 else t.get? name := by
  unfold get?
  by_cases h : e.1 = name <;> simp [h]

theorem has_cons (e : String × α) (t : Table α) (name : String) :
    has (e :: t) name = (e.1 == name || t.has name) := by
  simp [has]

/-- A name that has an entry can be looked up. -/
theorem has_eq_isSome (t : Table α) (name : String) : t.has name = (t.get? name).isSome := by
  induction t with
  | nil => rfl
  | cons e t ih =>
    rw [has_cons, get?_cons, ih]
    by_cases h : e.1 = name <;> simp [h]

theorem has_of_get? {t : Table α} {name : String} {a : α} (h : t.get? name = some a) :
    t.has name = true := by
  rw [has_eq_isSome, h]
  rfl

theorem get?_of_not_has {t : Table α} {name : String} (h : t.has name = false) :
    t.get? name = none := by
  rw [has_eq_isSome] at h
  simpa using h

theorem mem_of_get? {t : Table α} {name : String} {a : α} (h : t.get? name = some a) :
    (name, a) ∈ t := by
  unfold get? at h
  rw [Option.map_eq_some_iff] at h
  obtain ⟨e, he, rfl⟩ := h
  have := List.find?_some he
  simp only [beq_iff_eq] at this
  exact this ▸ List.mem_of_find?_eq_some he

theorem get?_append (t u : Table α) (name : String) :
    get? (t ++ u) name = (t.get? name).or (u.get? name) := by
  induction t with
  | nil => simp
  | cons e t ih =>
    rw [List.cons_append, get?_cons, get?_cons, ih]
    split <;> simp

/-- Replacing the entry for a name in place. -/
theorem get?_replace (t : Table α) (name other : String) (a : α) :
    get? (t.map fun e => if e.1 == name then (name, a) else e) other =
      if name = other then (t.get? name).map (fun _ => a) else t.get? other := by
  induction t with
  | nil => simp
  | cons e t ih =>
    rw [List.map_cons, get?_cons, get?_cons, get?_cons, ih]
    by_cases he : e.1 = name
    · subst he
      by_cases h : e.1 = other <;> simp [h]
    · by_cases h : name = other
      · subst h
        simp [he]
      · simp [he, h]

/-- An entry that is put is found, and other entries stay. -/
theorem get?_put (t : Table α) (name other : String) (a : α) :
    (t.put name a).get? other = if name = other then some a else t.get? other := by
  unfold put
  split
  · rename_i h
    rw [get?_replace]
    rw [has_eq_isSome, Option.isSome_iff_exists] at h
    obtain ⟨b, hb⟩ := h
    simp [hb]
  · rename_i h
    rw [get?_append, get?_cons, get?_nil]
    split
    · rename_i hn
      subst hn
      rw [get?_of_not_has (by simpa using h)]
      rfl
    · simp

@[simp] theorem get?_put_self (t : Table α) (name : String) (a : α) :
    (t.put name a).get? name = some a := by
  simp [get?_put]

theorem get?_put_of_ne (t : Table α) {name other : String} (a : α) (h : name ≠ other) :
    (t.put name a).get? other = t.get? other := by
  simp [get?_put, h]

/-- Putting one value keeps another one exactly where it does not replace it. -/
theorem get?_put_eq_some_of_ne (t : Table α) {name other : String} {a b : α} (h : a ≠ b) :
    (t.put name a).get? other = some b ↔ t.get? other = some b ∧ name ≠ other := by
  rw [get?_put]
  by_cases hn : name = other <;> simp [hn, h]

/-- Entries of a kind to which no entry for a name belongs are the same after a put for the name. -/
theorem filter_put {p : String × α → Bool} (t : Table α) {name : String} (a : α)
    (h : ∀ b, p (name, b) = false) : (t.put name a).filter p = t.filter p := by
  have hreplaced : ∀ t : Table α,
      (t.map fun e => if e.1 == name then (name, a) else e).filter p = t.filter p := by
    intro t
    induction t with
    | nil => rfl
    | cons e rest ih =>
      obtain ⟨key, b⟩ := e
      rw [List.map_cons]
      by_cases hkey : key = name
      · subst hkey
        rw [if_pos (beq_self_eq_true key), List.filter_cons_of_neg (by simp [h]),
          List.filter_cons_of_neg (by simp [h]), ih]
      · rw [if_neg (by simpa using hkey), List.filter_cons, ih, ← List.filter_cons]
  unfold put
  split
  · exact hreplaced t
  · simp [List.filter_append, h]

/-- The entry for a name is gone when it was erased, and other entries stay. -/
theorem get?_erase (t : Table α) (name other : String) :
    (t.erase name).get? other = if name = other then none else t.get? other := by
  unfold erase get?
  rw [List.find?_filter]
  by_cases h : name = other
  · subst h
    rw [if_pos rfl, Option.map_eq_none_iff, List.find?_eq_none]
    simp
  · rw [if_neg h]
    congr 2
    funext e
    by_cases he : e.1 = other
    · simp [he, Ne.symm h]
    · simp [he]

/-- Under a name that one value was put under among others, that value is found. -/
theorem get?_foldl_put_const (names : List String) (t : Table α) (a : α) (other : String) :
    (names.foldl (fun t n => t.put n a) t).get? other =
      if names.contains other then some a else t.get? other := by
  induction names generalizing t with
  | nil => rfl
  | cons n rest ih =>
    rw [List.foldl_cons, ih, get?_put, List.contains_cons]
    by_cases hrest : other ∈ rest
    · simp [hrest]
    · by_cases hn : n = other
      · simp [hn]
      · simp [hn, Ne.symm hn]

/-- What is in a table after a put was there before or has been put. -/
theorem mem_put {t : Table α} {name : String} {a : α} {e : String × α} (h : e ∈ t.put name a) :
    e = (name, a) ∨ e ∈ t := by
  unfold put at h
  split at h
  · obtain ⟨e', he', rfl⟩ := List.mem_map.1 h
    split
    · exact .inl rfl
    · exact .inr he'
  · rcases List.mem_append.1 h with h | h
    · exact .inr h
    · exact .inl (List.mem_singleton.1 h)

/-- Putting other values keeps a value exactly where none of them replaces it. -/
theorem get?_foldl_put {β : Type} {name : β → String} {value : β → α} {a : α} {other : String}
    {items : List β} {t : Table α} (h : ∀ x ∈ items, value x ≠ a) :
    (items.foldl (fun t x => t.put (name x) (value x)) t).get? other = some a ↔
      t.get? other = some a ∧ ∀ x ∈ items, name x ≠ other := by
  induction items generalizing t with
  | nil => simp
  | cons x rest ih =>
    rw [List.foldl_cons, ih fun y hy => h y (List.mem_cons_of_mem _ hy),
      get?_put_eq_some_of_ne t (h x List.mem_cons_self), List.forall_mem_cons, and_assoc]

/-- After some puts a name has an entry if it had one before or something was put there. -/
theorem has_foldl_put {β : Type} {name : β → String} {value : β → α} {other : String}
    {items : List β} {t : Table α} :
    (items.foldl (fun t x => t.put (name x) (value x)) t).has other = true ↔
      t.has other = true ∨ ∃ x ∈ items, name x = other := by
  induction items generalizing t with
  | nil => simp
  | cons x rest ih =>
    rw [List.foldl_cons, ih, has_eq_isSome, get?_put, has_eq_isSome]
    by_cases hx : name x = other <;> simp [hx]

/-- What is put under distinct names is found. -/
theorem get?_foldl_put_of_mem {β : Type} {name : β → String} {value : β → α} {items : List β}
    {t : Table α} (hn : (items.map name).Nodup) {x : β} (hx : x ∈ items) :
    (items.foldl (fun t x => t.put (name x) (value x)) t).get? (name x) = some (value x) := by
  obtain ⟨before, after, rfl⟩ := List.append_of_mem hx
  rw [List.map_append, List.map_cons, List.nodup_append, List.nodup_cons] at hn
  rw [List.foldl_append, List.foldl_cons]
  refine List.foldlRecOn (motive := fun t : Table α => t.get? (name x) = some (value x)) _ _
    (get?_put_self _ _ _) fun t ht y hy => ?_
  have hne : name y ≠ name x := fun h => hn.2.1.1 (List.mem_map.2 ⟨y, hy, h⟩)
  rw [get?_put_of_ne _ _ hne, ht]

/-- The names of a table have no entry twice. -/
theorem nodup_put {t : Table α} (ht : (t.map (·.1)).Nodup) (name : String) (a : α) :
    ((t.put name a).map (·.1)).Nodup := by
  unfold put
  split
  · have same : (t.map fun e => if e.1 == name then (name, a) else e).map (·.1) = t.map (·.1) := by
      rw [List.map_map]
      refine List.map_congr_left fun e _ => ?_
      by_cases he : e.1 = name <;> simp [he]
    rw [same]
    exact ht
  · rename_i hname
    rw [List.map_append, List.nodup_append]
    refine ⟨ht, by simp, fun n hn m hm => ?_⟩
    obtain ⟨e, he, rfl⟩ := List.mem_map.1 hn
    rintro rfl
    refine hname (List.any_eq_true.2 ⟨e, he, ?_⟩)
    simpa using hm

/-- Where no name has two entries, every entry is found. -/
theorem get?_of_mem {t : Table α} (ht : (t.map (·.1)).Nodup) {name : String} {a : α}
    (h : (name, a) ∈ t) : t.get? name = some a := by
  induction t with
  | nil => cases h
  | cons e t ih =>
    rw [List.map_cons, List.nodup_cons] at ht
    rw [get?_cons]
    rcases List.mem_cons.1 h with rfl | h
    · rw [if_pos rfl]
    · rw [if_neg, ih ht.2 h]
      rintro rfl
      exact ht.1 (List.mem_map.2 ⟨_, h, rfl⟩)

/-- All values of a table have a property. -/
def All (P : α → Prop) (t : Table α) : Prop := ∀ e ∈ t, P e.2

theorem all_nil (P : α → Prop) : All P [] := by
  intro e he
  cases he

/-- Putting a value that has a property keeps the property of all values. -/
theorem All.put {P : α → Prop} {t : Table α} (ht : All P t) (name : String) {a : α} (ha : P a) :
    All P (t.put name a) := by
  intro e he
  rcases mem_put he with rfl | he
  · exact ha
  · exact ht e he

end WebMigration.Table
