import WebMigration.Syntax.StatementEnd

/-!
# Where identifiers begin and end

A name stands apart in a file when no character of an identifier touches it.  A name with dots in it
must not follow a dot behind an identifier either, since it would then go on with a longer one.  Most
lexemes leave a place where a name stands apart; numbers, regular expressions and hyphenated names do
not, and a single dot only leaves one for a name without dots.
-/

namespace WebMigration.Syntax

open Character

/-! ### Punctuation -/

/-- The punctuation marks one by one. -/
def punctuation : List Char :=
  [':', ';', '\x60', '"', '\'', '@', '#', '.', ',', '|', '^', '&', '<', '=', '>', '+', '-', '*', '/', '\\',
    '%', '?', '!', '~', '(', ')', '[', ']', '\x7b', '\x7d']

theorem isPunctuation_eq (c : Char) : isPunctuation c = punctuation.contains c := by
  have htext : ":;\x60\"'@#.,|^&<=>+-*/\\%?!~()[]\x7b\x7d" = String.ofList punctuation := rfl
  rw [isPunctuation, htext, String.toList_ofList]

theorem not_isIdentifierPart_of_punctuation {c : Char} (h : punctuation.contains c = true) :
    isIdentifierPart c = false := by
  rw [isIdentifierPart, isPunctuation_eq, h]
  exact Bool.and_false _

theorem not_isIdentifierPart_dot : isIdentifierPart '.' = false := not_isIdentifierPart_of_punctuation rfl

theorem not_isIdentifierPart_slash : isIdentifierPart '/' = false := not_isIdentifierPart_of_punctuation rfl

/-! ### Texts -/

/-- The text does not end with a character of an identifier. -/
def Loose (front : List Char) : Prop := ∀ c ∈ front.getLast?, isIdentifierPart c = false

/-- The text does not end with a character of an identifier, nor with one and a dot. -/
structure Free (front : List Char) : Prop where
  loose : Loose front
  dot : ∀ rest, front = rest ++ ['.'] → Loose rest

/-- The text does not begin with a character of an identifier. -/
def Shut (back : List Char) : Prop := ∀ c ∈ back.head?, isIdentifierPart c = false

section Texts

variable {front back rest : List Char} {c : Char}

theorem Loose.of_suffix (h : Loose front) (hrest : rest <:+ front) : Loose rest := by
  obtain ⟨more, rfl⟩ := hrest
  intro c hc
  obtain ⟨rest, rfl⟩ := List.getLast?_eq_some_iff.1 hc
  refine h c ?_
  rw [← List.append_assoc, List.getLast?_concat]
  exact rfl

theorem Free.of_suffix (h : Free front) (hrest : rest <:+ front) : Free rest := by
  refine ⟨h.loose.of_suffix hrest, fun init hinit => ?_⟩
  obtain ⟨more, rfl⟩ := hrest
  refine (h.dot (more ++ init) ?_).of_suffix (List.suffix_append more init)
  rw [hinit, List.append_assoc]

theorem loose_nil : Loose [] := nofun

theorem free_nil : Free [] := by
  refine ⟨loose_nil, fun rest h => ?_⟩
  simp at h

theorem shut_nil : Shut [] := nofun

theorem shut_cons (h : isIdentifierPart c = false) : Shut (c :: back) := by
  rintro d ⟨⟩
  exact h

theorem loose_concat (h : isIdentifierPart c = false) (front : List Char) : Loose (front ++ [c]) := by
  intro d hd
  rw [List.getLast?_concat] at hd
  cases hd
  exact h

theorem free_concat (h : isIdentifierPart c = false) (hdot : c ≠ '.') (front : List Char) :
    Free (front ++ [c]) := by
  refine ⟨loose_concat h front, fun rest hrest => ?_⟩
  obtain ⟨-, hc⟩ := List.append_inj' hrest rfl
  exact absurd (List.singleton_inj.1 hc) hdot

end Texts

/-! ### Places -/

/-- What is known of the text before a place where an identifier may begin. -/
inductive Level
  | any
  | loose
  | free
  deriving DecidableEq

namespace Level

def rank : Level → Nat
  | any => 0
  | loose => 1
  | free => 2

instance : LE Level := ⟨fun l m => l.rank ≤ m.rank⟩

instance (l m : Level) : Decidable (l ≤ m) := inferInstanceAs (Decidable (l.rank ≤ m.rank))

theorem any_le (l : Level) : any ≤ l := Nat.zero_le _

theorem le_free (l : Level) : l ≤ free := by
  cases l <;> decide

/-- What is known in both cases. -/
def meet : Level → Level → Level
  | any, _ => any
  | _, any => any
  | loose, _ => loose
  | _, loose => loose
  | free, free => free

/-- What a level says of the text before the place. -/
def Holds : Level → List Char → Prop
  | any, _ => True
  | loose, front => Loose front
  | free, front => Free front

/-- An identifier goes on at a place of a file only behind a text of the level. -/
def At (l : Level) (file : List Char) (k : Nat) : Prop :=
  ∀ front back, front ++ back = file → byteSize front = k → Shut back ∨ l.Holds front

end Level

/-- No identifier goes on at a place of a file. -/
def ShutAt (file : List Char) (k : Nat) : Prop :=
  ∀ front back, front ++ back = file → byteSize front = k → Shut back

section Places

variable {file front back front' back' : List Char} {l m : Level} {k : Nat}

theorem Level.Holds.mono (h : m.Holds front) (hle : l ≤ m) : l.Holds front := by
  cases l <;> cases m <;>
    first
    | exact trivial
    | exact h
    | exact Free.loose h
    | exact absurd hle (by decide)

theorem Level.At.mono (h : m.At file k) (hle : l ≤ m) : l.At file k :=
  fun front back hfile hk => (h front back hfile hk).imp_right fun h => h.mono hle

theorem Level.meet_le_left (l m : Level) : l.meet m ≤ l := by
  cases l <;> cases m <;> decide

theorem Level.meet_le_right (l m : Level) : l.meet m ≤ m := by
  cases l <;> cases m <;> decide

/-- A file parts in one way after so many bytes. -/
theorem eq_of_byteSize (h : front ++ back = front' ++ back') (hsize : byteSize front = byteSize front') :
    front = front' ∧ back = back' := by
  rcases List.append_eq_append_iff.1 h with ⟨more, rfl, rfl⟩ | ⟨more, rfl, rfl⟩
  · rw [byteSize_append] at hsize
    have hmore : more = [] := eq_nil_of_byteSize (by omega)
    simp [hmore]
  · rw [byteSize_append] at hsize
    have hmore : more = [] := eq_nil_of_byteSize (by omega)
    simp [hmore]

/-- A place cuts the file in one way only. -/
theorem forall_split_iff {P : List Char → List Char → Prop} (hfile : front ++ back = file) :
    (∀ front' back', front' ++ back' = file → byteSize front' = byteSize front → P front' back') ↔
      P front back := by
  constructor
  · exact fun h => h front back hfile rfl
  · rintro h front' back' hfile' hsize
    obtain ⟨rfl, rfl⟩ := eq_of_byteSize (hfile.trans hfile'.symm) hsize.symm
    exact h

theorem Level.at_iff (hfile : front ++ back = file) :
    l.At file (byteSize front) ↔ Shut back ∨ l.Holds front :=
  forall_split_iff hfile

theorem shutAt_iff (hfile : front ++ back = file) : ShutAt file (byteSize front) ↔ Shut back :=
  forall_split_iff hfile

theorem ShutAt.level (h : ShutAt file k) : l.At file k :=
  fun front back hfile hk => .inl (h front back hfile hk)

theorem at_zero : l.At file 0 := by
  refine (Level.at_iff (List.nil_append file)).2 (.inr ?_)
  cases l with
  | any => trivial
  | loose => exact loose_nil
  | free => exact free_nil

end Places

/-! ### Blanks and comments -/

section Gaps

variable {file cs : List Char} {c : Char} {l : Level} {n : Nat} {p q : Progress file}

theorem not_isIdentifierPart_of_isBlank (h : isBlank c = true) : isIdentifierPart c = false := by
  simp [isIdentifierPart, h]

theorem isBlank_of_isBreakableBlank (h : isBreakableBlank c = true) : isBlank c = true := by
  have hnumber : ∀ d : Char, c = d ↔ c.toNat = d.toNat := fun d => Char.toNat_inj.symm
  have hle : ∀ d e : Char, d ≤ e ↔ d.toNat ≤ e.toNat := fun _ _ => UInt32.le_iff_toNat_le
  simp only [isBreakableBlank, isBlank, isSpaceSeparator, Bool.or_eq_true, Bool.and_eq_true,
    decide_eq_true_eq, beq_iff_eq, hle, hnumber, Char.reduceToNat] at h ⊢
  omega

theorem isBlank_of_endsLineComment (h : endsLineComment c = true) : isBlank c = true := by
  simp only [endsLineComment, isLineBreak, Bool.or_eq_true, beq_iff_eq] at h
  rcases h with ((rfl | rfl) | rfl) | rfl <;> decide

/-- The file before and after a place that a reader goes on to. -/
theorem exists_split_advance (p : Progress file) (n : Nat) :
    ∃ front, (front ++ p.rest.take n) ++ p.rest.drop n = file ∧
      (p.advance n).pos = byteSize (front ++ p.rest.take n) := by
  obtain ⟨front, hfile, hpos⟩ := p.split
  refine ⟨front, by rw [List.append_assoc, List.take_append_drop, hfile], ?_⟩
  rw [byteSize_append, hpos]
  rfl

/-- Where a reader goes on after some characters. -/
theorem at_advance (p : Progress file) (n : Nat)
    (h : Shut (p.rest.drop n) ∨ ∀ front, l.Holds (front ++ p.rest.take n)) :
    l.At file (p.advance n).pos := by
  obtain ⟨front, hsplit, hsize⟩ := exists_split_advance p n
  rw [hsize, Level.at_iff hsplit]
  exact h.imp_right fun h => h front

theorem shutAt_advance (p : Progress file) (n : Nat) (h : Shut (p.rest.drop n)) :
    ShutAt file (p.advance n).pos := by
  obtain ⟨front, hsplit, hsize⟩ := exists_split_advance p n
  rwa [hsize, shutAt_iff hsplit]

theorem holds_concat (h : isIdentifierPart c = false) (hdot : c ≠ '.') (front : List Char) :
    l.Holds (front ++ [c]) :=
  (show Level.free.Holds _ from free_concat h hdot front).mono (by cases l <;> decide)

theorem shutAt_rest (h : Shut p.rest) : ShutAt file p.pos := by
  obtain ⟨front, hfile, hpos⟩ := p.split
  rw [← hpos, shutAt_iff hfile]
  exact h

theorem at_afterBlanks (h : l.At file p.pos) : l.At file p.afterBlanks.pos := by
  obtain ⟨more, hmore⟩ := List.takeWhile_prefix isBlank (l := p.rest)
  rcases List.eq_nil_or_concat (p.rest.takeWhile isBlank) with hnone | ⟨blanks, c, hblanks⟩
  · rw [Progress.afterBlanks, hnone]
    exact h
  · rw [List.concat_eq_append] at hblanks
    have htake : p.rest.take (p.rest.takeWhile isBlank).length = blanks ++ [c] := by
      conv => lhs; arg 2; rw [← hmore]
      rw [List.take_left, hblanks]
    have hblank : isBlank c = true := by
      have hall := List.all_takeWhile (p := isBlank) (l := p.rest)
      rw [List.all_eq_true] at hall
      exact hall c (by rw [hblanks]; simp)
    refine at_advance p _ (.inr fun front => ?_)
    rw [htake, ← List.append_assoc]
    refine holds_concat (not_isIdentifierPart_of_isBlank hblank) ?_ _
    rintro rfl
    exact absurd hblank (by decide)

theorem take_of_blockCommentRest? (h : blockCommentRest? cs = some n) :
    ∃ inside, cs.take n = inside ++ ['/'] := by
  induction cs generalizing n with
  | nil => cases h
  | cons c cs ih =>
    unfold blockCommentRest? at h
    split at h
    · rename_i heq
      obtain ⟨rfl, rfl⟩ := List.cons.inj heq
      cases h
      exact ⟨['*'], rfl⟩
    · rename_i heq
      obtain ⟨rfl, rfl⟩ := List.cons.inj heq
      obtain ⟨m, hm, rfl⟩ := Option.map_eq_some_iff.1 h
      obtain ⟨inside, hinside⟩ := ih hm
      exact ⟨c :: inside, by rw [List.take_succ_cons, hinside, List.cons_append]⟩
    · cases h

/-- Behind a run of characters that ends only where no identifier goes on. -/
theorem shut_drop_takeWhile {test : Char → Bool} (h : ∀ c, test c = false → isIdentifierPart c = false)
    (cs : List Char) : Shut (cs.drop (cs.takeWhile test).length) := by
  intro c hc
  have hdrop : cs.drop (cs.takeWhile test).length = cs.dropWhile test := by
    conv => lhs; arg 2; rw [← List.takeWhile_append_dropWhile (p := test) (l := cs)]
    exact List.drop_left
  have hend := List.head?_dropWhile_not test cs
  rw [← hdrop, Option.mem_def.1 hc] at hend
  exact h c (by simpa using hend)

/-- A comment ends with a slash or at the end of its line. -/
theorem ends_of_commentLength? (h : commentLength? cs = some n) :
    Shut (cs.drop n) ∨ ∃ inside, cs.take n = inside ++ ['/'] := by
  unfold commentLength? at h
  split at h
  · rename_i r
    cases h
    have hend : Shut (r.drop (r.takeWhile (!endsLineComment ·)).length) :=
      shut_drop_takeWhile (fun c hc => not_isIdentifierPart_of_isBlank
        (isBlank_of_endsLineComment (by simpa using hc))) r
    rw [Nat.add_comm, List.drop_succ_cons, List.drop_succ_cons]
    exact .inl hend
  · obtain ⟨m, hm, rfl⟩ := Option.map_eq_some_iff.1 h
    obtain ⟨inside, hinside⟩ := take_of_blockCommentRest? hm
    exact .inr ⟨'/' :: '*' :: inside, by
      rw [List.take_succ_cons, List.take_succ_cons, hinside]
      rfl⟩
  · cases h

theorem note_pos (p : Progress file) (c : Passage file) : (p.note c).pos = p.pos := by
  unfold Progress.note
  split
  · split <;> rfl
  · rfl

theorem at_afterComment? (h : p.afterComment? = some q) : l.At file q.pos := by
  obtain ⟨n, c, hn, rfl⟩ := Progress.exists_of_afterComment? h
  rw [note_pos]
  refine at_advance _ n ((ends_of_commentLength? hn).imp_right ?_)
  rintro ⟨inside, hinside⟩ front
  rw [hinside, ← List.append_assoc]
  exact holds_concat not_isIdentifierPart_slash (by decide) _

/-- What is known before blanks and comments is known after them. -/
theorem at_afterGap (h : l.At file p.pos) : l.At file p.afterGap.pos := by
  have hfuel : ∀ (fuel : Nat) (p : Progress file), l.At file p.pos → l.At file (p.afterGapUpTo fuel).pos := by
    intro fuel
    induction fuel with
    | zero => exact fun p h => h
    | succ fuel ih =>
      intro p h
      rw [Progress.afterGapUpTo]
      split
      · rename_i q hq
        exact ih q (at_afterComment? hq)
      · exact at_afterBlanks h
  exact hfuel _ p h

theorem le_advance (p : Progress file) (n : Nat) : p.pos ≤ (p.advance n).pos := Nat.le_add_right _ _

/-- Blanks and comments are passed forward. -/
theorem le_afterGap (p : Progress file) : p.pos ≤ p.afterGap.pos := by
  have hfuel : ∀ (fuel : Nat) (p : Progress file), p.pos ≤ (p.afterGapUpTo fuel).pos := by
    intro fuel
    induction fuel with
    | zero => exact fun p => Nat.le_refl _
    | succ fuel ih =>
      intro p
      rw [Progress.afterGapUpTo]
      split
      · rename_i q hq
        obtain ⟨n, c, -, rfl⟩ := Progress.exists_of_afterComment? hq
        have hblanks : p.pos ≤ p.afterBlanks.pos := le_advance p _
        have hcomment : p.afterBlanks.pos ≤ ((p.afterBlanks.advance n).note c).pos := by
          rw [note_pos]
          exact le_advance p.afterBlanks n
        exact Nat.le_trans hblanks (Nat.le_trans hcomment (ih _))
      · exact le_advance p _
  exact hfuel _ p

/-- A comment or the blanks before it come next. -/
theorem shut_of_afterComment? (h : p.afterComment? = some q) : Shut p.rest := by
  obtain ⟨n, c, hn, -⟩ := Progress.exists_of_afterComment? h
  cases hrest : p.rest with
  | nil => exact shut_nil
  | cons c rest =>
    by_cases hblank : isBlank c = true
    · exact shut_cons (not_isIdentifierPart_of_isBlank hblank)
    · have hsame : p.afterBlanks.rest = c :: rest := by
        rw [Progress.afterBlanks, hrest, List.takeWhile_cons_of_neg hblank]
        exact hrest
      rw [hsame] at hn
      have hslash : c = '/' := by
        unfold commentLength? at hn
        split at hn
        · rename_i heq
          exact (List.cons.inj heq).1
        · rename_i heq
          exact (List.cons.inj heq).1
        · cases hn
      exact shut_cons (hslash ▸ not_isIdentifierPart_slash)

/-! ### Inserted statement ends -/

theorem shut_of_insertsEndUpTo {d : Dialect} {context : EndContext} {fuel : Nat}
    (h : d.insertsEndUpTo context fuel cs = true) : Shut cs := by
  cases fuel with
  | zero => cases h
  | succ fuel =>
    cases cs with
    | nil => exact shut_nil
    | cons c r =>
      refine shut_cons (Bool.eq_false_iff.2 fun hpart => ?_)
      have hbrace : c ≠ '\x7d' := by
        rintro rfl
        exact absurd hpart (Bool.eq_false_iff.1 (not_isIdentifierPart_of_punctuation rfl))
      have hslash : c ≠ '/' := by
        rintro rfl
        exact absurd hpart (Bool.eq_false_iff.1 not_isIdentifierPart_slash)
      have hblank : isBlank c = false := by
        refine Bool.eq_false_iff.2 fun hblank => ?_
        rw [not_isIdentifierPart_of_isBlank hblank] at hpart
        cases hpart
      have hbreak : isLineBreak c = false := by
        refine Bool.eq_false_iff.2 fun hbreak => ?_
        rw [isBlank_of_endsLineComment (by simp [endsLineComment, hbreak])] at hblank
        cases hblank
      have hbreakable : isBreakableBlank c = false := by
        refine Bool.eq_false_iff.2 fun hbreakable => ?_
        rw [isBlank_of_isBreakableBlank hbreakable] at hblank
        cases hblank
      have hstep : d.insertsEndUpTo context (fuel + 1) (c :: r) =
          if c == '\x7d' then _ else if c == '/' && !d.hasTypes then _ else if isLineBreak c then _
            else if isBreakableBlank c then d.insertsEndUpTo context fuel r else false := rfl
      rw [hstep, if_neg (by simpa using hbrace), if_neg (by simp [hslash]), if_neg (by simp [hbreak]),
        if_neg (by simp [hbreakable])] at h
      cases h

/-- No identifier goes on where a statement end may be inserted. -/
theorem shutAt_of_insertsEndPast {d : Dialect} {context : EndContext} {fuel : Nat}
    (h : d.insertsEndPast context fuel p = true) : ShutAt file p.pos := by
  cases fuel with
  | zero => cases h
  | succ fuel =>
    rw [Dialect.insertsEndPast, Bool.or_eq_true] at h
    rcases h with h | h
    · exact shutAt_rest (shut_of_insertsEndUpTo h)
    · split at h
      · rename_i q hq
        exact shutAt_rest (shut_of_afterComment? hq)
      · cases h

end Gaps

end WebMigration.Syntax
