import WebMigration.Syntax.Tree

/-!
# Offsets of a file

An offset counts the bytes of a file from its start.  It is a cut when it stands between two
characters, so that the file can be taken apart there into two texts.
-/

namespace WebMigration.Syntax

/-- The number of bytes that a text takes in UTF-8. -/
def byteSize (cs : List Char) : Nat := cs.foldl (fun n c => n + c.utf8Size) 0

theorem foldl_utf8Size (cs : List Char) (n : Nat) :
    cs.foldl (fun n c => n + c.utf8Size) n = n + byteSize cs := by
  unfold byteSize
  induction cs generalizing n with
  | nil => rfl
  | cons c cs ih =>
    rw [List.foldl_cons, List.foldl_cons, ih, ih (0 + c.utf8Size)]
    omega

@[simp] theorem byteSize_nil : byteSize [] = 0 := rfl

@[simp] theorem byteSize_cons (c : Char) (cs : List Char) :
    byteSize (c :: cs) = c.utf8Size + byteSize cs := by
  rw [byteSize, List.foldl_cons, foldl_utf8Size, Nat.zero_add]

@[simp] theorem byteSize_append (as bs : List Char) :
    byteSize (as ++ bs) = byteSize as + byteSize bs := by
  unfold byteSize
  rw [List.foldl_append, foldl_utf8Size bs, byteSize]

theorem eq_nil_of_byteSize {cs : List Char} (h : byteSize cs = 0) : cs = [] := by
  cases cs with
  | nil => rfl
  | cons c cs =>
    rw [byteSize_cons] at h
    have := c.utf8Size_pos
    omega

/-- The file can be taken apart into two texts after so many bytes. -/
def IsCut (file : List Char) (k : Nat) : Prop :=
  ∃ before after, before ++ after = file ∧ byteSize before = k

theorem isCut_zero (file : List Char) : IsCut file 0 := ⟨[], file, rfl, rfl⟩

theorem isCut_byteSize (file : List Char) : IsCut file (byteSize file) :=
  ⟨file, [], List.append_nil file, rfl⟩

theorem isCut_byteSize_front {file front : List Char} (h : front <+: file) :
    IsCut file (byteSize front) := by
  obtain ⟨back, hfile⟩ := h
  exact ⟨front, back, hfile, rfl⟩

theorem isCut_iff {file : List Char} {k : Nat} :
    IsCut file k ↔ ∃ n ≤ file.length, byteSize (file.take n) = k := by
  constructor
  · rintro ⟨before, after, rfl, rfl⟩
    exact ⟨before.length, by simp, by simp⟩
  · rintro ⟨n, -, rfl⟩
    exact isCut_byteSize_front (List.take_prefix n file)

instance (file : List Char) (k : Nat) : Decidable (IsCut file k) := decidable_of_iff' _ isCut_iff

/-- A word of the file starts after so many bytes. -/
def Stands (file : List Char) (k : Nat) (word : String) : Prop :=
  ∃ before after, before ++ (word.toList ++ after) = file ∧ byteSize before = k

theorem stands_iff {file : List Char} {k : Nat} {word : String} :
    Stands file k word ↔
      ∃ n ≤ file.length, byteSize (file.take n) = k ∧ word.toList <+: file.drop n := by
  constructor
  · rintro ⟨before, after, rfl, rfl⟩
    exact ⟨before.length, by simp, by simp, by simp⟩
  · rintro ⟨n, -, rfl, after, hafter⟩
    exact ⟨file.take n, after, by rw [hafter, List.take_append_drop], rfl⟩

instance (file : List Char) (k : Nat) (word : String) : Decidable (Stands file k word) :=
  decidable_of_iff' _ stands_iff

namespace IsCut

variable {file head tail : List Char} {k : Nat}

theorem le (h : IsCut file k) : k ≤ byteSize file := by
  obtain ⟨before, after, rfl, rfl⟩ := h
  rw [byteSize_append]
  omega

/-- A cut of a file that lies in its head is a cut of the head. -/
theorem of_le (h : IsCut (head ++ tail) k) (hk : k ≤ byteSize head) : IsCut head k := by
  obtain ⟨before, after, hfile, rfl⟩ := h
  rcases List.append_eq_append_iff.1 hfile with ⟨more, rfl, -⟩ | ⟨more, rfl, -⟩
  · exact ⟨before, more, rfl, rfl⟩
  · rw [byteSize_append] at hk
    have hmore : more = [] := eq_nil_of_byteSize (by omega)
    exact ⟨head, [], List.append_nil head, by rw [hmore, List.append_nil]⟩

end IsCut

/-- A range starts and ends at cuts of a file. -/
structure Span.AtCuts (file : List Char) (r : Span) : Prop where
  start : IsCut file r.start
  stop : IsCut file r.stop

instance (file : List Char) (r : Span) : Decidable (r.AtCuts file) :=
  decidable_of_iff (IsCut file r.start ∧ IsCut file r.stop)
    ⟨fun h => ⟨h.1, h.2⟩, fun h => ⟨h.start, h.stop⟩⟩

/-- A cut of a file. -/
def Offset (file : List Char) : Type := { k : Nat // IsCut file k }

/-- The start of a file. -/
def Offset.zero {file : List Char} : Offset file := ⟨0, isCut_zero file⟩

/-- A part of a file between two cuts, which is not empty. -/
structure Passage (file : List Char) where
  start : Offset file
  stop : Offset file
  nonempty : start.1 < stop.1

/-- The range of bytes of a passage. -/
def Passage.span {file : List Char} (p : Passage file) : Span := ⟨p.start.1, p.stop.1⟩

end WebMigration.Syntax
