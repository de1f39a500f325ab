import WebMigration.Disk.Basic
import WebMigration.Proofs.Text.Utf8

/-!
# Texts of files

Reading the text of a file makes a line feed of every carriage return, so what is written back has
the same bytes exactly when there was none.
-/

namespace WebMigration.Disk

theorem carriageReturn_not_mem (cs : List Char) : '\r' ∉ withLineFeeds cs := by
  fun_induction withLineFeeds cs with
  | case1 rest ih => simp [ih]
  | case2 rest _ ih => simp [ih]
  | case3 c rest _ hc ih => exact List.not_mem_cons_of_ne_of_not_mem (fun h => hc h.symm) ih
  | case4 => simp

theorem withLineFeeds_eq_self {cs : List Char} (h : '\r' ∉ cs) : withLineFeeds cs = cs := by
  fun_induction withLineFeeds cs with
  | case1 rest _ => simp at h
  | case2 rest _ _ => simp at h
  | case3 c rest _ _ ih => rw [ih (List.ne_and_not_mem_of_not_mem_cons h).2]
  | case4 => rfl

/-- The text of a file has the bytes of the file exactly when these hold no carriage return. -/
theorem encode_textOf?_iff {bytes : List UInt8} {text : String} (h : textOf? bytes = some text) :
    Text.encode text = bytes ↔ 13 ∉ bytes := by
  obtain ⟨s, hs, rfl⟩ := Option.map_eq_some_iff.1 h
  have hbytes := Text.encode_of_decode? hs
  have hmem : ∀ cs : List Char, (13 : UInt8) ∈ Text.bytesOf cs ↔ '\r' ∈ cs := fun cs =>
    Text.mem_bytesOf_iff (c := '\r') (by decide)
  rw [← hbytes, Text.encode_eq, Text.encode_eq, String.toList_ofList]
  constructor
  · intro heq
    rw [← heq, hmem]
    exact carriageReturn_not_mem _
  · intro hnot
    rw [hmem] at hnot
    rw [withLineFeeds_eq_self hnot]

end WebMigration.Disk
