import Mathlib.Data.List.TakeWhile
import WebMigration.Proofs.Json.Refusal
import WebMigration.Proofs.Text.Pieces
import WebMigration.Semantic.Answer

/-!
# What an answer is read as

The record of an answer is the whole of it without fences, or the part from its first opening brace to its
last closing one if the whole is no value.  An answer in which a record with code is found is read as that
record says, and every other one as plain code that someone has to look at.  Reading fails in two cases
only: a number has too many digits to be read, or the confidence of the record that is found is infinite.
-/

namespace WebMigration.SemanticResult

open Text

variable {answer text part : String} {fields : List (String × Json)}

/-! ### The parts of an answer -/

theorem withoutClosingFence_isInfix (lines : List String) : withoutClosingFence lines <:+: lines := by
  unfold withoutClosingFence
  split
  · split
    · exact (List.dropLast_prefix lines).isInfix
    · exact List.infix_rfl
  · exact List.infix_rfl

theorem withoutFences_isInfix (answer : String) : (withoutFences answer).toList <:+: answer.toList := by
  simp only [withoutFences]
  split
  · have hlines : withoutClosingFence ((splitOn "\n" (strip answer)).drop 1) <:+:
        splitOn "\n" (strip answer) :=
      (withoutClosingFence_isInfix _).trans (List.drop_suffix 1 _).isInfix
    exact (strip_isInfix _).trans ((join_isInfix rfl hlines).trans (strip_isInfix answer))
  · exact strip_isInfix answer

/-- A part of a text from the first opening brace to the last closing one. -/
def IsBraced (text part : List Char) : Prop :=
  ∃ before inside after, part = '\x7b' :: (inside ++ ['\x7d']) ∧ text = before ++ (part ++ after) ∧
    '\x7b' ∉ before ∧ '\x7d' ∉ after

theorem takeWhile_ne_of_not_mem {c : Char} {cs : List Char} (h : c ∉ cs) : cs.takeWhile (· != c) = cs :=
  List.takeWhile_eq_self_iff.2 fun d hd => by simpa using fun hdc : d = c => h (hdc ▸ hd)

theorem takeWhile_ne_append {c : Char} {before : List Char} (h : c ∉ before) (after : List Char) :
    (before ++ c :: after).takeWhile (· != c) = before := by
  rw [List.takeWhile_append_of_pos fun d hd => by simpa using fun hdc : d = c => h (hdc ▸ hd),
    List.takeWhile_cons_of_neg (by simp), List.append_nil]

theorem braced?_of_isBraced (h : IsBraced text.toList part.toList) : braced? text = some part := by
  obtain ⟨before, inside, after, hpart, htext, hbefore, hafter⟩ := h
  have hfront : text.toList.takeWhile (· != '\x7b') = before := by
    rw [htext, hpart, List.cons_append]
    exact takeWhile_ne_append hbefore _
  have hback : text.toList.reverse.takeWhile (· != '\x7d') = after.reverse := by
    have hreverse : text.toList.reverse = after.reverse ++ '\x7d' :: (before ++ '\x7b' :: inside).reverse := by
      rw [htext, hpart]
      simp
    rw [hreverse]
    exact takeWhile_ne_append (by simpa using hafter) _
  have hsize : before.length + after.length + 1 < text.toList.length := by
    simp [htext, hpart]
    omega
  have htake : (text.toList.drop before.length).take (text.toList.length - before.length - after.length) =
      part.toList := by
    have hlength : text.toList.length - before.length - after.length = part.toList.length := by
      rw [htext]
      simp
    rw [hlength, htext, List.drop_left, List.take_left]
  simp only [braced?, hfront, hback, List.length_reverse, if_pos hsize, htake, String.ofList_toList]

theorem isBraced_of_braced? (h : braced? text = some part) : IsBraced text.toList part.toList := by
  have hbraced := h
  simp only [braced?] at h
  split at h
  · rename_i hsize
    -- both braces occur, or the other end of the text is reached
    have hopen : '\x7b' ∈ text.toList := by
      by_contra hopen
      rw [takeWhile_ne_of_not_mem hopen] at hsize
      omega
    have hclose : '\x7d' ∈ text.toList.reverse := by
      by_contra hclose
      rw [takeWhile_ne_of_not_mem hclose, List.length_reverse] at hsize
      omega
    obtain ⟨before, rest, htext, hbefore⟩ := List.eq_append_cons_of_mem hopen
    obtain ⟨after, front, hreverse, hafter⟩ := List.eq_append_cons_of_mem hclose
    have hback : text.toList = front.reverse ++ '\x7d' :: after.reverse := by
      rw [← List.reverse_reverse text.toList, hreverse]
      simp
    have hlong : before.length + 1 ≤ front.length := by
      have hlength := congrArg List.length hback
      rw [hreverse, takeWhile_ne_append hafter, htext, takeWhile_ne_append hbefore, ← htext] at hsize
      simp at hlength
      omega
    obtain ⟨inside, hinside⟩ : before ++ ['\x7b'] <+: front.reverse :=
      List.prefix_of_prefix_length_le ⟨rest, by simp [htext]⟩ ⟨_, hback.symm⟩ (by simpa using hlong)
    have hall : IsBraced text.toList (String.ofList ('\x7b' :: (inside ++ ['\x7d']))).toList :=
      ⟨before, inside, after.reverse, String.toList_ofList, by rw [hback, ← hinside]; simp, hbefore,
        by simpa using hafter⟩
    rw [braced?_of_isBraced hall, Option.some.injEq] at hbraced
    rwa [← hbraced]
  · cases h

/-! ### What is found in an answer -/

/-- The value that is found in an answer: the answer without fences, or its part in braces if the whole is
no value. -/
inductive Found (answer : String) (v : Json) : Prop
  | whole (h : Json.parse (withoutFences answer) = .ok v)
  | inBraces {part : String} (hwhole : Json.parse (withoutFences answer) = .error .malformed)
      (hpart : IsBraced (withoutFences answer).toList part.toList) (h : Json.parse part = .ok v)

/-- The search for a value stops at a whole number of too many digits. -/
inductive StopsAt (answer : String) (digits : Nat) : Prop
  | whole (h : Json.parse (withoutFences answer) = .error (.oversized digits))
  | inBraces {part : String} (hwhole : Json.parse (withoutFences answer) = .error .malformed)
      (hpart : IsBraced (withoutFences answer).toList part.toList)
      (h : Json.parse part = .error (.oversized digits))

/-- A record with code: a field of that name that is not empty. -/
def HasCode (fields : List (String × Json)) : Prop :=
  ((Json.lookup? fields "code").getD .null).isTruthy = true

variable {v : Json} {digits : Nat}

/-- What is found stands in the answer. -/
theorem Found.exists_part (h : Found answer v) :
    ∃ part : String, part.toList <:+: answer.toList ∧ Json.parse part = .ok v := by
  cases h with
  | whole h => exact ⟨_, withoutFences_isInfix answer, h⟩
  | @inBraces part hwhole hpart h =>
    obtain ⟨before, inside, after, -, htext, -, -⟩ := hpart
    have hinside : part.toList <:+: (withoutFences answer).toList :=
      ⟨before, after, by rw [htext, List.append_assoc]⟩
    exact ⟨part, hinside.trans (withoutFences_isInfix answer), h⟩

/-- The search stops only where so many digits stand. -/
theorem StopsAt.hasRun (h : StopsAt answer digits) : Json.HasRun digits answer.toList := by
  cases h with
  | whole h => exact (Json.hasRun_of_parse h).mono (withoutFences_isInfix answer)
  | @inBraces part hwhole hpart h =>
    obtain ⟨before, inside, after, -, htext, -, -⟩ := hpart
    have hinside : part.toList <:+: (withoutFences answer).toList :=
      ⟨before, after, by rw [htext, List.append_assoc]⟩
    exact (Json.hasRun_of_parse h).mono (hinside.trans (withoutFences_isInfix answer))

theorem recordIn_of_found (h : Found answer v) : recordIn (withoutFences answer) = .ok (fieldsOf v) := by
  cases h with
  | whole h => simp [recordIn, decode, h, bind, Except.bind, pure, Except.pure]
  | inBraces hwhole hpart h =>
    simp [recordIn, decode, hwhole, braced?_of_isBraced hpart, h, bind, Except.bind, pure, Except.pure]

theorem read_of_found (h : Found answer (.record fields)) (hcode : HasCode fields) :
    read answer = ofRecord fields ((Json.lookup? fields "code").getD .null) := by
  have hrecord := recordIn_of_found h
  simp only [read, hrecord, fieldsOf, bind, Except.bind]
  exact if_pos hcode

theorem read_of_stopsAt (h : StopsAt answer digits) : read answer = .error (overlong digits) := by
  cases h with
  | whole h => simp [read, recordIn, decode, h, bind, Except.bind]
  | inBraces hwhole hpart h =>
    simp [read, recordIn, decode, hwhole, braced?_of_isBraced hpart, h, bind, Except.bind]

/-- Nothing is found and the search does not stop where no value stands. -/
theorem recordIn_cases (answer : String) :
    (∃ digits, StopsAt answer digits) ∨ (∃ v, Found answer v) ∨
      recordIn (withoutFences answer) = .ok none := by
  cases hwhole : Json.parse (withoutFences answer) with
  | ok v => exact .inr (.inl ⟨v, .whole hwhole⟩)
  | error e =>
    cases e with
    | oversized digits => exact .inl ⟨digits, .whole hwhole⟩
    | malformed =>
      cases hpart : braced? (withoutFences answer) with
      | none =>
        refine .inr (.inr ?_)
        simp [recordIn, decode, hwhole, hpart, bind, Except.bind, pure, Except.pure]
      | some part =>
        have hbraced := isBraced_of_braced? hpart
        cases hparse : Json.parse part with
        | ok v => exact .inr (.inl ⟨v, .inBraces hwhole hbraced hparse⟩)
        | error e =>
          cases e with
          | oversized digits => exact .inl ⟨digits, .inBraces hwhole hbraced hparse⟩
          | malformed =>
            refine .inr (.inr ?_)
            simp [recordIn, decode, hwhole, hpart, hparse, bind, Except.bind, pure, Except.pure]

/-- An answer in which no record with code is found is plain code. -/
theorem read_cases (answer : String) :
    (∃ digits, StopsAt answer digits) ∨ (∃ fields, Found answer (.record fields) ∧ HasCode fields) ∨
      read answer = .ok (unexpected answer) := by
  rcases recordIn_cases answer with h | ⟨v, h⟩ | h
  · exact .inl h
  · have hrecord := recordIn_of_found h
    cases v with
    | record fields =>
      by_cases hcode : HasCode fields
      · exact .inr (.inl ⟨fields, h, hcode⟩)
      · refine .inr (.inr ?_)
        simp only [read, hrecord, fieldsOf, bind, Except.bind]
        exact if_neg hcode
    | _ =>
      refine .inr (.inr ?_)
      simp [read, hrecord, fieldsOf, bind, Except.bind, pure, Except.pure]
  · refine .inr (.inr ?_)
    simp [read, h, bind, Except.bind, pure, Except.pure]

/-! ### The result -/

theorem readConfidence_error_iff :
    (∃ fault, readConfidence v = .error fault) ↔ ∃ negative, v = .float (.infinite negative) := by
  constructor
  · rintro ⟨fault, h⟩
    unfold readConfidence at h
    split at h
    · cases h
    · split at h
      · cases h
      · cases h
      · split at h
        · rename_i negative _
          exact ⟨negative, rfl⟩
        · cases h
      · cases h
      · cases h
  · rintro ⟨negative, rfl⟩
    exact ⟨unbounded, rfl⟩

/-- The confidence of a record is infinite. -/
def IsUnbounded (fields : List (String × Json)) : Prop :=
  ∃ negative, Json.lookup? fields "confidence" = some (.float (.infinite negative))

theorem ofRecord_ok_iff {code : Json} : (∃ r, ofRecord fields code = .ok r) ↔ ¬ IsUnbounded fields := by
  have hunbounded : IsUnbounded fields ↔
      ∃ fault, readConfidence ((Json.lookup? fields "confidence").getD .null) = .error fault := by
    rw [readConfidence_error_iff]
    cases hlookup : Json.lookup? fields "confidence" <;> simp [IsUnbounded, hlookup]
  rw [hunbounded]
  cases hread : readConfidence ((Json.lookup? fields "confidence").getD .null) <;>
    simp [ofRecord, hread, Except.map]

theorem ofRecord_spec {code : Json} {r : SemanticResult} (h : ofRecord fields code = .ok r) :
    0 ≤ r.confidence ∧ r.confidence ≤ 100 ∧
      (r.review = false → Json.lookup? fields "requiresReview" = some (.bool false)) := by
  unfold ofRecord at h
  cases hread : readConfidence ((Json.lookup? fields "confidence").getD .null) with
  | error e =>
    rw [hread] at h
    cases h
  | ok n =>
    rw [hread] at h
    obtain rfl := Except.ok.inj h
    refine ⟨Int.le_max_left 0 _, ?_, ?_⟩
    · show max 0 (min 100 n) ≤ 100
      omega
    · intro hreview
      cases hlookup : Json.lookup? fields "requiresReview" with
      | none => simp [hlookup, isFalse] at hreview
      | some v => cases v <;> simp_all [isFalse]

/-- Reading an answer gives a result unless the search stops at a number that is too long, or the record
with code that is found has an infinite confidence.  A result has a confidence from 0 to 100; it needs no
review only if the answer holds a record with code that says so literally, and it is the plain answer if no
record with code is found. -/
theorem read_safe (answer : String) :
    ((∃ r, read answer = .ok r) ↔
      (¬ ∃ digits, StopsAt answer digits) ∧
        ∀ fields, Found answer (.record fields) → HasCode fields → ¬ IsUnbounded fields) ∧
    (∀ digits, StopsAt answer digits → Json.HasRun digits answer.toList) ∧
    ∀ r, read answer = .ok r →
      0 ≤ r.confidence ∧ r.confidence ≤ 100 ∧
      (r.review = false → ∃ (part : String) (fields : List (String × Json)),
        part.toList <:+: answer.toList ∧ Json.parse part = .ok (.record fields) ∧ HasCode fields ∧
          Json.lookup? fields "requiresReview" = some (.bool false)) ∧
      ((¬ ∃ fields, Found answer (.record fields) ∧ HasCode fields) → r = unexpected answer) := by
  refine ⟨⟨?_, ?_⟩, fun digits h => h.hasRun, ?_⟩
  · rintro ⟨r, hr⟩
    refine ⟨?_, fun fields hfound hcode => ?_⟩
    · rintro ⟨digits, hstop⟩
      rw [read_of_stopsAt hstop] at hr
      cases hr
    · rw [read_of_found hfound hcode] at hr
      exact ofRecord_ok_iff.1 ⟨r, hr⟩
  · rintro ⟨hstop, hbounded⟩
    rcases read_cases answer with h | ⟨fields, hfound, hcode⟩ | h
    · exact absurd h hstop
    · rw [read_of_found hfound hcode]
      exact ofRecord_ok_iff.2 (hbounded fields hfound hcode)
    · exact ⟨_, h⟩
  · intro r hr
    rcases read_cases answer with ⟨digits, hstop⟩ | ⟨fields, hfound, hcode⟩ | h
    · rw [read_of_stopsAt hstop] at hr
      cases hr
    · rw [read_of_found hfound hcode] at hr
      obtain ⟨hlow, hhigh, hreview⟩ := ofRecord_spec hr
      obtain ⟨part, hpart, hparse⟩ := hfound.exists_part
      refine ⟨hlow, hhigh, fun hfalse => ?_, fun hnone => ?_⟩
      · exact ⟨part, fields, hpart, hparse, hcode, hreview hfalse⟩
      · exact absurd ⟨fields, hfound, hcode⟩ hnone
    · rw [h] at hr
      obtain rfl := Except.ok.inj hr
      have hassumed : 0 ≤ assumedConfidence ∧ assumedConfidence ≤ 100 := by decide
      refine ⟨hassumed.1, hassumed.2, fun hfalse => ?_, fun _ => rfl⟩
      simp [unexpected] at hfalse

/-- A record with code and an infinite confidence is no result. -/
theorem infinite_confidence_fails :
    ¬ ∃ r, read "\x7b\"code\": \"x\", \"confidence\": Infinity\x7d" = .ok r := by
  have hfails : (read "\x7b\"code\": \"x\", \"confidence\": Infinity\x7d").isOk = false := by
    decide +kernel
  rintro ⟨r, hr⟩
  rw [hr] at hfails
  cases hfails

end WebMigration.SemanticResult
