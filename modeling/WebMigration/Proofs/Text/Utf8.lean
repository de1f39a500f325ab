import WebMigration.Syntax.Offset
import WebMigration.Text.Utf8

/-!
# Bytes at cuts

The bytes of a text are those of its characters, one after the other.  At a cut they part into the
bytes of two texts.
-/

namespace WebMigration.Text

open Syntax

/-- The bytes of some characters. -/
def bytesOf (cs : List Char) : List UInt8 := cs.flatMap String.utf8EncodeChar

@[simp] theorem bytesOf_nil : bytesOf [] = [] := rfl

@[simp] theorem bytesOf_cons (c : Char) (cs : List Char) :
    bytesOf (c :: cs) = String.utf8EncodeChar c ++ bytesOf cs := rfl

@[simp] theorem bytesOf_append (as bs : List Char) :
    bytesOf (as ++ bs) = bytesOf as ++ bytesOf bs :=
  List.flatMap_append

@[simp] theorem length_bytesOf (cs : List Char) : (bytesOf cs).length = byteSize cs := by
  induction cs with
  | nil => rfl
  | cons c cs ih => rw [bytesOf_cons, List.length_append, ih, byteSize_cons,
      String.length_utf8EncodeChar]

/-! ### Texts and byte arrays -/

theorem toList_loop (bs : ByteArray) (i : Nat) (r : List UInt8) :
    ByteArray.toList.loop bs i r = r.reverse ++ bs.data.toList.drop i := by
  fun_induction ByteArray.toList.loop bs i r with
  | case1 i r hi ih =>
    have hlt : i < bs.data.toList.length := hi
    have hget : bs.get! i = bs.data.toList[i] := by
      show bs.data[i]! = _
      rw [getElem!_pos bs.data i hlt, Array.getElem_toList]
    rw [ih, List.drop_eq_getElem_cons hlt, hget, List.reverse_cons, List.append_assoc,
      List.singleton_append]
  | case2 i r hi =>
    have hlength : bs.data.toList.length ≤ i := Nat.not_lt.1 hi
    rw [List.drop_of_length_le hlength, List.append_nil]

theorem toList_eq (bs : ByteArray) : bs.toList = bs.data.toList := by
  rw [ByteArray.toList, toList_loop, List.reverse_nil, List.nil_append, List.drop_zero]

theorem toUTF8_toList (s : String) : s.toUTF8.toList = bytesOf s.toList := by
  rw [toList_eq, String.toUTF8_eq_toByteArray, ← String.utf8Encode_toList, List.utf8Encode,
    List.toList_data_toByteArray, bytesOf]

theorem encode_eq (s : String) : encode s = bytesOf s.toList := toUTF8_toList s

/-- The bytes of a text stand for the text. -/
@[simp] theorem decode?_bytesOf (cs : List Char) :
    decode? (bytesOf cs) = some (String.ofList cs) := by
  have harray : (⟨(bytesOf cs).toArray⟩ : ByteArray) = (String.ofList cs).toByteArray := by
    rw [String.toByteArray_ofList, List.utf8Encode]
    apply ByteArray.ext
    rw [← Array.toList_inj, List.toList_data_toByteArray]
    rfl
  rw [decode?, harray, String.fromUTF8?, dif_pos (String.ofList cs).isValidUTF8]
  rfl

/-- The bytes of the text that bytes stand for are these bytes. -/
theorem encode_of_decode? {bytes : List UInt8} {s : String} (h : decode? bytes = some s) :
    encode s = bytes := by
  unfold decode? String.fromUTF8? at h
  split at h
  · obtain rfl := Option.some.inj h
    rw [encode, String.toUTF8_eq_toByteArray, toList_eq]
    rfl
  · cases h

/-- A byte below 128 is the code of a character, and only that character has it. -/
theorem toNat_of_mem_utf8EncodeChar {c : Char} {b : UInt8} (h : b ∈ String.utf8EncodeChar c)
    (hb : b.toNat < 128) : c.val.toNat = b.toNat := by
  unfold String.utf8EncodeChar at h
  dsimp only at h
  split at h
  · obtain rfl := List.mem_singleton.1 h
    rw [UInt8.toNat_ofNat']
    omega
  · -- All bytes of a longer code are 128 or more.
    exfalso
    have hlow : ∀ n, b = UInt8.ofNat n → n % 256 < 128 := by
      rintro n rfl
      rwa [UInt8.toNat_ofNat'] at hb
    split at h
    · simp only [List.mem_cons, List.not_mem_nil, or_false] at h
      rcases h with h | h <;> have := hlow _ h <;> omega
    · split at h
      · simp only [List.mem_cons, List.not_mem_nil, or_false] at h
        rcases h with h | h | h <;> have := hlow _ h <;> omega
      · simp only [List.mem_cons, List.not_mem_nil, or_false] at h
        rcases h with h | h | h | h <;> have := hlow _ h <;> omega

/-- A byte below 128 is among those of a text exactly when the text has the character. -/
theorem mem_bytesOf_iff {cs : List Char} {c : Char} (hc : c.val.toNat < 128) :
    UInt8.ofNat c.val.toNat ∈ bytesOf cs ↔ c ∈ cs := by
  have htoNat : (UInt8.ofNat c.val.toNat).toNat = c.val.toNat := by
    rw [UInt8.toNat_ofNat']
    omega
  rw [bytesOf, List.mem_flatMap]
  constructor
  · rintro ⟨c', hc', hmem⟩
    have hval := toNat_of_mem_utf8EncodeChar hmem (by omega)
    obtain rfl : c' = c := Char.ext (UInt32.toNat_inj.1 (hval.trans htoNat))
    exact hc'
  · intro hmem
    refine ⟨c, hmem, ?_⟩
    unfold String.utf8EncodeChar
    dsimp only
    rw [if_pos (by omega)]
    exact List.mem_singleton_self _

/-! ### Cuts -/

theorem take_bytesOf (as bs : List Char) :
    (bytesOf (as ++ bs)).take (byteSize as) = bytesOf as := by
  rw [bytesOf_append, ← length_bytesOf, List.take_left]

theorem drop_bytesOf (as bs : List Char) :
    (bytesOf (as ++ bs)).drop (byteSize as) = bytesOf bs := by
  rw [bytesOf_append, ← length_bytesOf, List.drop_left]

theorem utf8Size_of_lineFeed {c : Char} (h : (String.utf8EncodeChar c).head? = some 10) :
    c.utf8Size = 1 := by
  have hval := toNat_of_mem_utf8EncodeChar (List.mem_of_mem_head? h) (by decide)
  rw [Char.utf8Size, if_pos]
  rw [UInt32.le_iff_toNat_le, hval]
  decide

/-- There is a cut after a line feed. -/
theorem isCut_after_lineFeed {file : List Char} {k : Nat} (hcut : IsCut file k)
    (h : slice (bytesOf file) k (k + 1) = [10]) : IsCut file (k + 1) := by
  obtain ⟨before, after, rfl, rfl⟩ := hcut
  rw [slice, List.drop_take, drop_bytesOf, Nat.add_sub_cancel_left] at h
  cases after with
  | nil => cases h
  | cons c rest =>
    have hhead : (String.utf8EncodeChar c).head? = some 10 := by
      have hbytes := congrArg List.head? h
      rw [List.head?_take, if_neg (by omega), bytesOf_cons, List.head?_append] at hbytes
      have hne : String.utf8EncodeChar c ≠ [] := String.utf8EncodeChar_ne_nil
      rw [List.head?_eq_some_head hne] at hbytes ⊢
      exact hbytes
    refine ⟨before ++ [c], rest, by rw [List.append_assoc, List.singleton_append], ?_⟩
    rw [byteSize_append, byteSize_cons, byteSize_nil, utf8Size_of_lineFeed hhead]

/-- What lies between two cuts. -/
theorem between_bytes {s : String} {front middle back : List Char}
    (h : s.toList = front ++ (middle ++ back)) :
    between s.toUTF8 (byteSize front) (byteSize (front ++ middle)) = String.ofList middle := by
  have hbytes : s.toUTF8.extract (byteSize front) (byteSize (front ++ middle)) =
      ⟨(bytesOf middle).toArray⟩ := by
    apply ByteArray.ext
    rw [← Array.toList_inj, ByteArray.data_extract, Array.toList_extract, ← toList_eq, toUTF8_toList, h,
      List.extract_eq_take_drop, bytesOf_append, bytesOf_append, byteSize_append, ← length_bytesOf,
      ← length_bytesOf]
    simp
  have hdecode := decode?_bytesOf middle
  rw [decode?] at hdecode
  rw [between, hbytes, hdecode]
  rfl

/-- A text that is read between two cuts stands there. -/
theorem exists_of_between {s word : String} {start stop : Nat} (hstart : IsCut s.toList start)
    (hstop : IsCut s.toList stop) (h : between s.toUTF8 start stop = word) (hword : word ≠ "") :
    ∃ front back, s.toList = front ++ (word.toList ++ back) ∧ byteSize front = start ∧
      byteSize (front ++ word.toList) = stop := by
  obtain ⟨front, rest, hfront, rfl⟩ := hstart
  obtain ⟨longer, back, hlonger, rfl⟩ := hstop
  rcases List.append_eq_append_iff.1 (hfront.trans hlonger.symm) with ⟨middle, rfl, rfl⟩ | ⟨more, rfl, rfl⟩
  · rw [between_bytes hfront.symm] at h
    rw [← h, String.toList_ofList]
    exact ⟨front, back, hfront.symm, rfl, rfl⟩
  · -- Nothing lies between the cuts when the second is not behind the first.
    have hempty : s.toUTF8.extract (byteSize (longer ++ more)) (byteSize longer) = ⟨(bytesOf []).toArray⟩ := by
      apply ByteArray.ext
      rw [← Array.toList_inj, ByteArray.data_extract, Array.toList_extract, List.extract_eq_take_drop,
        byteSize_append, Nat.sub_eq_zero_of_le (Nat.le_add_right _ _)]
      rfl
    have hdecode := decode?_bytesOf []
    rw [decode?] at hdecode
    rw [between, hempty, hdecode] at h
    exact absurd h.symm hword

end WebMigration.Text
