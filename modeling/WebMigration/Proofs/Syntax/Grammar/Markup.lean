import WebMigration.Proofs.Syntax.Grammar.TypeExpression
import WebMigration.Syntax.Grammar.Markup

/-!
# Sound markup

Names with hyphens leave nothing known behind them, so that a name with a colon may follow one directly;
its parts are the only ones that need not stand apart.
-/

namespace WebMigration.Syntax.Grammar

open Reader Fragment

variable {file : List Char} {pre : Level}

/-! ### Names -/

theorem nonempty_hyphenatedLength? : Nonempty hyphenatedLength? := by
  intro cs n h
  unfold hyphenatedLength? at h
  dsimp only at h
  split at h
  · rename_i c r
    split at h
    · rename_i hname
      cases h
      have hstart := (Bool.and_eq_true_iff.1 hname).1
      rw [List.takeWhile_cons_of_pos (by rw [hstart, Bool.true_or]), List.length_cons,
        Nat.add_right_comm]
      exact List.cons_ne_nil _ _
    · cases h
  · cases h

theorem simple_markupWord {kind : Kind} {hkind : kind.isPlain = true}
    (hcomment : kind ≠ .comment := by decide) (hholds : kind.holdsName = false := by rfl) :
    Yields (·.node.Simple) (markupWord kind hkind : Reader file (Piece file)) :=
  .choice_cons (.simple_lexeme nonempty_hyphenatedLength?)
    (.choice_cons (.simple_lexeme nonempty_word hcomment hholds) .choice_nil)

theorem namespaceName_part_sound {pre : Level} :
    Reads pre .any (SoundName file true) (one (markupWord .identifier)) := by
  have hword : Reads pre .any (fun k p k' => Sound file true k [p] k') (markupWord .identifier) :=
    .choice_cons (.imp (.bareLeaf (leaves_any _) (.inl rfl)) fun _ _ _ _ h => h.sound)
      (.choice_cons (.imp (.bareLeaf (leaves_any _) (.inr ⟨rfl, nonempty_word⟩)) fun _ _ _ _ h => h.sound)
        .choice_nil)
  exact .oneSimple (hword.yields simple_markupWord)

theorem namespaceName_colon_sound {pre : Level} : Reads pre .free (SoundName file true) (sign ":") := by
  have hmark : Reads pre .free (fun k p k' => Sound file true k [p] k') (mark ":") :=
    .imp .mark fun _ _ _ _ h => h.weaken true
  exact .oneSimple (hmark.yields .simple_markUnless)

/-- A name with a colon is simple, as its parts are. -/
theorem namespaceName_simple : Reads pre .any (fun k p k' => Sound file false k [p] k' ∧ p.node.Simple ∧
    p.kind = .jsxNamespaceName) namespaceName := by
  have hparts : Reads pre .any (SoundName file true)
      (seq [one (markupWord .identifier), sign ":", one (markupWord .identifier)]) :=
    .seq_consOf namespaceName_part_sound (.seq_consOf namespaceName_colon_sound
      (.seq_last namespaceName_part_sound) .append) .append
  exact .nodeWith hparts fun _ _ _ _ hoffset hps =>
    ⟨hps.sound.spanning rfl fun _ => hoffset, hps.spanning Kind.noConfusion rfl, rfl⟩

/-- The name of a member in the name of an element. -/
theorem memberElementName_tail_sound : Reads .free .free
    (fun k ps k' => Named file k ps k' ∧ ∀ p ∈ ps, p.node.Simple)
    (seq [one (markUnless "." "."), part .property (anyWord .propertyIdentifier)]) := by
  have hword : Yields (·.node.Simple) (anyWord .propertyIdentifier : Reader file (Piece file)) :=
    .simple_lexeme nonempty_word
  have hproperty : Yields (fun ps => ∀ p ∈ ps, p.node.Simple)
      (part .property (anyWord .propertyIdentifier) : Fragment file) :=
    hword.map fun _ hp => List.forall_mem_singleton.2 (hp.as .property)
  exact .yields (.memberTail (.one .dot) (.shutLeaf fun _ _ => shut_word))
    (.all_cons (.all_one .simple_markUnless) (.all_cons hproperty .all_nil))

/-- The name of an element that is a member of an object is simple, and so is one that is a word. -/
theorem memberElementName_simple :
    Reads .free .free (fun k p k' => Sound file false k [p] k' ∧ p.node.Simple) (do
      let first ← anyWord .identifier
      extend (fun n => do
          let tail ← seq [one (markUnless "." "."), part .property (anyWord .propertyIdentifier)]
          return Piece.spanning .memberExpression n.start (n.as .object :: tail))
        first) := by
  have hfirst : Reads .free .free (fun k p k' => Sound file false k [p] k' ∧ p.node.Simple)
      (anyWord .identifier) :=
    .yields .anyName (.simple_lexeme nonempty_word)
  refine hfirst.bind fun k first k' hk hname => .imp (.extend
    (I := fun j p => Sound file false k [p] j ∧ p.node.Simple) (fun base => ?_) first)
    fun _ _ _ _ hx hj => hx (hj ▸ hname)
  refine .map memberElementName_tail_sound fun j tail j' _ htail hbase => ?_
  have hobject := hbase.1.as .object
  have hpieces : SoundName file false k (base.as .object :: tail) j' :=
    ⟨hobject.cons htail.1.sound, List.forall_mem_cons.2 ⟨hbase.2.as .object, htail.2⟩, nofun⟩
  exact ⟨hobject.access hk htail.1, hpieces.spanning Kind.noConfusion rfl⟩

theorem elementName_simple :
    Reads .free .any (fun k p k' => Sound file false k [p] k' ∧ p.node.Simple) elementName := by
  have hnamespace : Reads .free .any (fun k p k' => Sound file false k [p] k' ∧ p.node.Simple)
      namespaceName := .imp namespaceName_simple fun _ _ _ _ h => ⟨h.1, h.2.1⟩
  exact .choice_cons hnamespace (.choice_cons (.yields (.lexeme (leaves_any _))
      (.simple_lexeme nonempty_hyphenatedLength?))
    (.choice_cons memberElementName_simple .choice_nil))

/-! ### Expressions and attributes -/

theorem markupExpression_more_sound : ReadsAll file .any .any (star (seq [sign ",", one enclosedValue])) :=
  .star (.seq_cons .sign (.seq_cons (.one enclosedValue_sound) .seq_nil))

theorem markupExpression_sound : ReadsOne file pre .free markupExpression :=
  .node (.seq_cons .sign (.seq_cons (.opt (.choice_cons
      (.one (.node (.seq_cons .sign (.seq_cons (.one enclosedValue_sound) .seq_nil))))
      (.choice_cons (.one (.followed enclosedValue_sound markupExpression_more_sound)) .choice_nil)))
    (.seq_cons .sign .seq_nil)))

theorem take_of_attributeStringLength? {cs : List Char} {n : Nat}
    (h : attributeStringLength? cs = some n) :
    ∃ inside quote, cs.take n = inside ++ [quote] ∧ (quote = '"' ∨ quote = '\'') := by
  unfold attributeStringLength? at h
  split at h
  · obtain ⟨m, hm, rfl⟩ := Option.map_eq_some_iff.1 h
    obtain ⟨inside, hinside⟩ := closedBy_attributeStringRest? _ _ _ _ hm
    exact ⟨'"' :: inside, '"', by rw [List.take_succ_cons, hinside]; rfl, .inl rfl⟩
  · obtain ⟨m, hm, rfl⟩ := Option.map_eq_some_iff.1 h
    obtain ⟨inside, hinside⟩ := closedBy_attributeStringRest? _ _ _ _ hm
    exact ⟨'\'' :: inside, '\'', by rw [List.take_succ_cons, hinside]; rfl, .inr rfl⟩
  · cases h

theorem attributeString_sound : ReadsOne file pre .free attributeString :=
  .quotation (leaves_quote fun _ _ => take_of_attributeStringLength?)

/-- The name of an attribute. -/
theorem markupAttribute_name_sound : Reads pre .any
    (fun k p k' => Sound file false k [p] k' ∧ p.node.isNamed = true ∧ p.node.Simple)
    (choice [namespaceName, do return (← markupWord .propertyIdentifier).retag .propertyIdentifier]) := by
  have hword : Reads pre .any (fun k p k' => Sound file false k [p] k' ∧ p.node.children = [])
      (markupWord .propertyIdentifier) :=
    .choice_cons (.imp (.leaf (leaves_any _)) fun _ _ _ _ h => ⟨h.sound, h.leaf⟩)
      (.choice_cons (.imp (.leaf (leaves_any _)) fun _ _ _ _ h => ⟨h.sound, h.leaf⟩) .choice_nil)
  have hretagged : Reads pre .any
      (fun k p k' => Sound file false k [p] k' ∧ p.node.isNamed = true ∧ p.node.Simple)
      (do return (← markupWord .propertyIdentifier).retag .propertyIdentifier) :=
    (hword.yields simple_markupWord).map fun _ _ _ _ hp =>
      ⟨hp.1.1.retag rfl fun hne => absurd hp.1.2 hne, rfl, hp.2.retag Kind.noConfusion rfl⟩
  refine .choice_cons (.imp namespaceName_simple fun _ p _ _ hp => ⟨hp.1, ?_, hp.2.1⟩)
    (.choice_cons hretagged .choice_nil)
  have hkind : p.node.kind = .jsxNamespaceName := hp.2.2
  rw [Node.isNamed, hkind]
  rfl

theorem markupAttribute_value_sound :
    ReadsOne file pre .free (choice [attributeString, markupExpression, enter .markup]) :=
  .choice_cons attributeString_sound (.choice_cons markupExpression_sound
    (.choice_cons .markup .choice_nil))

theorem markupAttribute_sound : ReadsOne file pre .any markupAttribute := by
  have hrest : ReadsAll file .any .any (seq [optSeq [equals,
      one (choice [attributeString, markupExpression, enter .markup])]]) :=
    .seq_cons (.optSeq (.seq_cons .equals (.seq_cons (.one markupAttribute_value_sound) .seq_nil)))
      .seq_nil
  exact .choice_cons markupExpression_sound (.choice_cons
    (.nodeWith (.seq_property markupAttribute_name_sound hrest) fun _ _ _ _ _ hps => hps.spanning)
    .choice_nil)

/-! ### Elements -/

/-- A mark plays no part in a tag. -/
theorem tagMark_sound {text barred : String} {pre : Level}
    (h : freesBehind text.toList.reverse = true := by exact freesBehind_text rfl rfl) :
    Reads pre .free (fun k ps k' => SoundNamed file k ps k' ∧ ps ≠ []) (one (markUnless text barred)) :=
  .map (.yields (.markUnless h) .field_lexeme) fun _ _ _ _ hp =>
    ⟨(Unplayed.single hp.1 hp.2).named, List.cons_ne_nil _ _⟩

theorem tagSign_sound {text : String} {pre : Level}
    (h : freesBehind text.toList.reverse = true := by exact freesBehind_text rfl rfl) :
    Reads pre .free (SoundNamed file) (sign text) :=
  (tagMark_sound h).imp fun _ _ _ _ hps => hps.1

theorem tagInside_sound : Reads .free .any (SoundNamed file) tagInside :=
  .seq_name elementName_simple (.seq_cons (.optTyped (.part typeArguments_sound))
    (.seq_cons (.star (.part markupAttribute_sound)) .seq_nil))

theorem child_sound : Reads pre .any (Unplayed file .closeTag) child :=
  .choice_cons (.oneUnplayed (.leafHere_one (leaves_any _)) .field_lexemeHere)
    (.choice_cons (.oneUnplayed (.lexeme (leaves_any _)) .field_lexeme)
    (.choice_cons (.oneUnplayed markupExpression_sound .field_node)
    (.choice_cons .unplayedMarkup .choice_nil)))

theorem element_closing_sound : Reads .any .free
    (fun k p k' => ∃ offset ps, p = Piece.spanning .jsxClosingElement offset ps ∧
      SoundNamed file k ps k' ∧ ps ≠ [])
    (node .jsxClosingElement [sign "</", opt (part .name elementName), sign ">"]) := by
  have hclose : Reads .any .free (SoundNamed file) (sign ">") := tagSign_sound
  have hname : Reads .free .free (SoundNamed file) (seq [opt (part .name elementName), sign ">"]) :=
    .seq_consOf (.optOf adds_soundNamed (.partName elementName_simple)) (.seq_last hclose)
      fun hps hqs => hps.append hqs
  have hpieces : Reads .any .free (fun k ps k' => SoundNamed file k ps k' ∧ ps ≠ [])
      (seq [sign "</", opt (part .name elementName), sign ">"]) :=
    .seq_consOf tagMark_sound hname fun hps hqs =>
      ⟨hps.1.append hqs, List.append_ne_nil_of_left_ne_nil hps.2 _⟩
  exact .nodeWith hpieces fun _ ps _ offset _ hps => ⟨offset, ps, rfl, hps⟩

/-- An element goes on with its children and its closing tag. -/
theorem element_withChildren_sound {start : Nat} {os : List (Piece file)} (hos : os ≠ []) :
    Reads .free .free (fun k p k' => SoundNamed file start os k → Sound file false start [p] k') (do
      let children ← star child
      let closeTag ← node .jsxClosingElement [sign "</", opt (part .name elementName), sign ">"]
      return Piece.spanning .jsxElement .zero
        (openTag .zero os :: children ++ [closeTag.as .closeTag])) := by
  have hchildren : Reads .free .any (Unplayed file .closeTag) (star child) :=
    .mono (.starOf (adds_unplayed .closeTag) child_sound) (Level.any_le _) (Nat.le_refl _)
  refine hchildren.bind fun j cs j' _ hcs => .map element_closing_sound ?_
  rintro i _ i' - ⟨offset, qs, rfl, hqs, hne⟩ hi ho
  subst hi
  exact ho.element hcs hqs hos hne

theorem element_sound : ReadsOne file pre .free element := by
  have hopening : Reads pre .free (fun k ps k' => SoundNamed file k ps k' ∧ ps ≠ [])
      (one (markUnless "<" "/")) := tagMark_sound
  refine hopening.bind fun k opening k' _ hopening => ?_
  have hne (qs rs : List (Piece file)) : opening ++ qs ++ rs ≠ [] :=
    List.append_ne_nil_of_left_ne_nil (List.append_ne_nil_of_left_ne_nil hopening.2 qs) rs
  have hrest : Reads .free .free (fun j p j' => SoundNamed file k opening j → Sound file false k [p] j')
      (do
        let inside ← opt tagInside
        choice [
          do
            when? (!inside.isEmpty)
            let closing ← sign "/>"
            return Piece.spanning .jsxSelfClosingElement .zero (opening ++ inside ++ closing),
          do
            let closing ← sign ">"
            let children ← star child
            let closeTag ← node .jsxClosingElement [sign "</", opt (part .name elementName), sign ">"]
            return Piece.spanning .jsxElement .zero (openTag .zero (opening ++ inside ++ closing) ::
              children ++ [closeTag.as .closeTag])]) := by
    refine .gatherOf adds_soundNamed (.optOf adds_soundNamed tagInside_sound) fun inside =>
      .choice_cons (.peek (.when? _) fun _ => .gatherOf adds_soundNamed tagSign_sound fun closing => ?_)
        (.choice_cons (.gatherOf adds_soundNamed tagSign_sound fun closing =>
          element_withChildren_sound (hne inside closing)) .choice_nil)
    exact .pure fun _ hk => ⟨hk, fun h => h.spanning (fun hnone => absurd hnone (hne _ _)) rfl rfl⟩
  exact hrest.imp fun _ _ _ _ hp hj => hp (hj ▸ hopening.1)

/-- An element by itself plays no part. -/
theorem element_field : Yields (·.node.field = none) (element : Reader file (Piece file)) :=
  .bind fun _ => .bind fun _ => .choice_cons (.bind fun _ => .bind fun _ => .pure rfl)
    (.choice_cons (.bind fun _ => .bind fun _ => .bind fun _ => .pure rfl) .choice_nil)

end WebMigration.Syntax.Grammar
