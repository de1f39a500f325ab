import WebMigration.Proofs.Syntax.Grammar.Pattern
import WebMigration.Syntax.Grammar.TypeExpression

/-!
# Sound types

Type expressions, the heads of functions and the members of object types.
-/

namespace WebMigration.Syntax.Grammar

open Reader Fragment

variable {file : List Char} {pre : Level} {ends : Bool}

theorem enclosedType_sound : ReadsOne file .free .any enclosedType := .type

theorem typeName_sound (hle : .loose ≤ pre := by decide) : ReadsOne file pre .free typeName :=
  .freeName (Eq.refl true) hle

theorem typeArguments_sound : ReadsOne file pre .free typeArguments :=
  .node (.seq_cons .sign (.seq_cons (commaList_sound (.one enclosedType_sound))
    (.seq_cons .sign .seq_nil)))

theorem typeAscription_sound : ReadsOne file pre .any (typeAscription ends) :=
  .node (.seq_cons .sign (.seq_cons (.one .type) .seq_nil))

theorem ascription_sound : ReadsAll file pre (pre.meet .any) (ascription ends) :=
  .optTyped (.part typeAscription_sound)

theorem constraint_sound :
    ReadsOne file .free .any (node .constraint [alt [kw "extends", sign ":"], one enclosedType]) :=
  .node (.seq_cons (.choice_cons .kw (.choice_cons .sign .choice_nil))
    (.seq_cons (.one enclosedType_sound) .seq_nil))

theorem defaultType_sound :
    ReadsOne file pre .any (node .defaultType [equals, one enclosedType]) :=
  .node (.seq_cons .equals (.seq_cons (.one enclosedType_sound) .seq_nil))

theorem typeParameters_typeParameter_sound : ReadsOne file .free .any typeParameters.typeParameter :=
  .node (.seq_cons (.opt .kw) (.seq_cons (.part typeName_sound) (.seq_cons
    (.opt (.part constraint_sound)) (.seq_cons (.opt (.part defaultType_sound)) .seq_nil))))

theorem typeParameters_sound : ReadsOne file pre .free typeParameters :=
  .node (.seq_cons .sign (.seq_cons (commaList_sound (.one typeParameters_typeParameter_sound))
    (.seq_cons .sign .seq_nil)))

theorem optTypeParameters_sound : ReadsAll file pre (pre.meet .free) optTypeParameters :=
  .optTyped (.part typeParameters_sound)

/-- A call that goes on with some pieces. -/
theorem called_goesOn {start : Nat} (before : List (Piece file)) {offset : Offset file}
    {arguments : Reader file (Piece file)} (h : ReadsOne file (pre.meet .free) .free arguments)
    (hbefore : before ≠ []) :
    Reads pre .free (GoesOn file start before) (do
      let types ← do
        if (← dialect).hasTypes then opt (part .typeArguments typeArguments) else pure []
      let values ← part .arguments arguments
      return Piece.spanning .callExpression offset (before ++ types ++ values)) := by
  have hrest (types : List (Piece file)) : Reads (pre.meet .free) .free
      (GoesOn file start (before ++ types)) (do
        let values ← part .arguments arguments
        return Piece.spanning .callExpression offset (before ++ types ++ values)) :=
    .gather (.part h) fun _ => .close rfl rfl fun hnone =>
      absurd (List.append_eq_nil_iff.1 (List.append_eq_nil_iff.1 hnone).1).1 hbefore
  refine .peek .dialect fun d => ?_
  dsimp only
  split
  · exact .gather (.opt (.part typeArguments_sound)) hrest
  · exact .gather (Reads.nil.mono (Nat.le_refl _) (Level.meet_le_left _ _)) hrest

theorem decorator_arguments_sound : ReadsOne file .free .free (node .arguments
    [sign "(", sparseList (alt [one (node .spreadElement [sign "...", one enclosedValue]),
      one enclosedValue]), sign ")"]) :=
  .node (.seq_cons .sign (.seq_cons (sparseList_sound (.choice_cons
    (.one (.node (.seq_cons .sign (.seq_cons (.one enclosedValue_sound) .seq_nil))))
    (.choice_cons (.one enclosedValue_sound) .choice_nil))) (.seq_cons .sign .seq_nil)))

theorem decorator_step_sound {start : Nat} {base : Piece file} (hstart : Level.free.At file start) :
    Reads .free .free (GoesOn file start [base]) (decorator.step base) :=
  .choice_cons (.goesOnMember hstart (.memberTail (.one .dot) (.shutLeaf fun _ _ => shut_word)))
    (.choice_cons (.goesFrom (called_goesOn [base.as .function] decorator_arguments_sound (by simp))
      fun _ hbase => hbase.as _) .choice_nil)

theorem decorator_target_sound : ReadsOne file .free .free decorator.target :=
  .extended .identifier fun _ hstart _ => decorator_step_sound hstart

theorem parenthesizedDecorator_sound : ReadsOne file pre .free
    (node .parenthesizedExpression [sign "(", one decorator.target, sign ")"]) :=
  .node (.seq_cons .sign (.seq_cons (.one decorator_target_sound) (.seq_cons .sign .seq_nil)))

theorem decorator_sound : ReadsOne file pre .free decorator :=
  .node (.seq_cons .sign (.seq_cons (.one (.choice_cons parenthesizedDecorator_sound
    (.choice_cons decorator_target_sound .choice_nil))) .seq_nil))

theorem modifierAhead_peeks (words : List String) (closing : List Char) :
    Peeks (modifierAhead words closing : Reader file Unit) := by
  intro s p a q h
  unfold modifierAhead at h
  split at h
  · split at h
    · split at h
      · cases h
      · cases h
        rfl
    · cases h
  · cases h

theorem modifier_sound {words : List String} {closing : List Char} :
    ReadsAll file pre .free (modifier words closing) := by
  refine .peek (modifierAhead_peeks words closing) fun _ => .peek (.peekLexeme _) fun w => ?_
  split
  · split
    · exact .one (.node (.seq_cons .kw .seq_nil))
    · split
      · exact .one (.node (.seq_cons .kw .seq_nil))
      · exact .kw
  · exact .refuse

/-! ### Heads of functions -/

theorem parameter_untyped_sound : ReadsOne file .free .any parameter.untyped :=
  .followed (.choice_cons restPattern_sound
    (.choice_cons destructuring_sound (.choice_cons .identifierValue .choice_nil)))
    (.opt defaultValue_sound)

theorem parameter_modifiers_sound : ReadsAll file .free .free (seq [star (part .decorator decorator),
    star (modifier ["public", "private", "protected", "override", "readonly"]
      [',', ')', ':', '=', '?'])]) :=
  .seq_cons (.star (.part decorator_sound)) (.seq_cons (.star modifier_sound) .seq_nil)

theorem parameter_target_sound : ReadsOne file .free .free (choice [
    node .restPattern [sign "...", one (enter .pattern)], destructuring,
    lexeme .this (wordThat (· == "this")), identifierValue]) :=
  .choice_cons restPattern_sound
    (.choice_cons destructuring_sound (.choice_cons .word (.choice_cons .identifierValue .choice_nil)))

theorem parameter_whole_sound {start k : Nat} {required : Bool} {ps : List (Piece file)}
    {hkind : (if required then Kind.requiredParameter else .optionalParameter).isPlain = true}
    (h : Sound file false start ps k) (hne : ps ≠ []) : Sound file false start [.spanning
      (if required then .requiredParameter else .optionalParameter)
      ((ps.head?.map (·.start)).getD .zero) ps hkind] k :=
  h.whole (by split <;> rfl) (by split <;> rfl) fun hnone => absurd hnone hne

theorem parameter_typed_sound : ReadsAll file .free .any parameter.typed :=
  .gathering fun _ _ => .gather parameter_modifiers_sound fun _ =>
    .gatherPart .pattern parameter_target_sound fun _ => .gather (.opt .sign) fun _ =>
    .gather (.seq_cons (.opt (.part typeAscription_sound))
      (.seq_cons (.opt defaultValue_sound) .seq_nil)) fun _ =>
      .pure fun _ hk => ⟨hk, fun h => parameter_whole_sound h (by simp)⟩

theorem parameter_sound : ReadsAll file .free .any parameter := by
  refine .peek .dialect fun d => ?_
  split
  · exact parameter_typed_sound
  · exact .one parameter_untyped_sound

theorem formalParameters_sound : ReadsOne file pre .free formalParameters :=
  .node (.seq_cons .sign (.seq_cons (.opt (commaList_sound parameter_sound)) (.seq_cons .sign .seq_nil)))

theorem typePredicate_sound : ReadsOne file .free .any (typePredicate ends) :=
  .node (.seq_cons (.part (.choice_cons .word (.choice_cons .anyName .choice_nil)))
    (.seq_cons .kw (.seq_cons (.part .type) .seq_nil)))

theorem asserts_sound : ReadsOne file pre .any (node .asserts [kw "asserts",
    one (choice [typePredicate ends, lexeme .this (wordThat (· == "this")), identifier])]) :=
  .node (.seq_cons .kw (.seq_cons (.one (.choice_cons typePredicate_sound (.choice_cons .word
    (.choice_cons .identifier .choice_nil)))) .seq_nil))

theorem resultType_sound : ReadsOne file .free .any (resultType ends) :=
  .choice_cons asserts_sound (.choice_cons typePredicate_sound (.choice_cons .type .choice_nil))

theorem returnType_sound : ReadsAll file pre .any (returnType ends) :=
  .choice_cons (.part (.node (.seq_cons .sign (.seq_cons (.one asserts_sound) .seq_nil))))
    (.choice_cons (.part (.node (.seq_cons .sign (.seq_cons (.one typePredicate_sound) .seq_nil))))
      (.choice_cons (.part typeAscription_sound) .choice_nil))

theorem signature_sound : ReadsAll file pre .any (signature ends) :=
  .seq_cons optTypeParameters_sound (.seq_cons (.part formalParameters_sound)
    (.seq_cons (.optTyped returnType_sound) .seq_nil))

/-! ### Operands -/

section NestedName

variable {whole last : Kind} {hwhole : whole.isPlain = true} {hlast : last.isPlain = true}

theorem nestedName_tail_sound (h : ReadsOne file .loose .free (freeWord last hlast)) :
    ReadsAll file .free .free (seq [one (markUnless "." "."), part .name (freeWord last hlast)]) :=
  .seq_cons (.one .dot) (.seq_cons (.part h) .seq_nil)

theorem nestedName_more_sound (h : ReadsOne file .loose .free (freeWord last hlast))
    (hordinary : whole.isOrdinary = true) (hcolon : (whole == .jsxNamespaceName) = false) (start : Nat)
    (base : Piece file) : Reads .free .free (GoesOn file start [base]) (extend (fun n => do
      let more ← seq [one (markUnless "." "."), part .name (freeWord last hlast)]
      return Piece.spanning whole n.start (n :: more) hwhole) base) :=
  .extendOn (fun _ =>
    .goesOn (g := fun n => n) (nestedName_tail_sound h) (fun _ _ _ h => h) hordinary hcolon) base

/-- A dotted name, whose parts behind a dot are names or of kinds of their own. -/
theorem nestedName_sound (h : ReadsOne file .loose .free (freeWord last hlast))
    (hordinary : whole.isOrdinary = true := by decide)
    (hcolon : (whole == .jsxNamespaceName) = false := by decide) :
    ReadsOne file .free .free (nestedName whole last hwhole hlast) :=
  .gathering fun start _ => .gatherOne .identifier fun _ => .gather (nestedName_tail_sound h) fun _ =>
    .goesFrom (nestedName_more_sound h hordinary hcolon start _) fun _ h =>
      h.whole hordinary hcolon nofun

end NestedName

theorem typeReference_sound : ReadsOne file .free .free
    (choice [nestedName .nestedTypeIdentifier .typeIdentifier, typeName]) :=
  .choice_cons (nestedName_sound typeName_sound) (.choice_cons typeName_sound .choice_nil)

theorem namedType_sound : ReadsOne file .free .free namedType :=
  .followed typeReference_sound (.opt (.part typeArguments_sound))

theorem indexBinder_sound : ReadsAll file .free .any indexBinder :=
  .choice_cons (.seq_cons (.part .freeName) (.seq_cons .sign (.seq_cons (.part enclosedType_sound) .seq_nil)))
    (.choice_cons (.one (.node (.seq_cons (.part typeName_sound) (.seq_cons .kw
      (.seq_cons (.part enclosedType_sound) (.seq_cons (.optSeq (.seq_cons .kw
        (.seq_cons (.part enclosedType_sound) .seq_nil))) .seq_nil)))))) .choice_nil)

theorem indexSignature_sound : ReadsOne file .free .any (indexSignature ends) :=
  .node (.seq_cons (.optSeq (.seq_cons (.opt (.choice_cons .sign (.choice_cons .sign .choice_nil)))
      (.seq_cons .kw .seq_nil))) (.seq_cons .sign (.seq_cons indexBinder_sound (.seq_cons .sign
    (.seq_cons (.optSeq (.seq_cons (.choice_cons .sign (.choice_cons .sign (.choice_cons .sign
      .choice_nil))) .seq_nil)) (.seq_cons (.part typeAscription_sound) .seq_nil))))))

theorem objectTypeMember_named_sound : ReadsOne file .free .any objectTypeMember.named := by
  refine .gathered fun b => .gather (.star modifier_sound) fun _ => .gather (.opt .sign) fun _ =>
    .gather (.part propertyName_sound) fun _ => .gather (.opt .sign) fun _ =>
    .gather (.opt signature_sound) fun method => ?_
  split
  · rename_i hnone
    rw [List.isEmpty_iff.1 hnone, List.append_nil]
    exact .gather (.opt (.part typeAscription_sound)) fun _ => .close rfl rfl fun _ => rfl
  · exact .close rfl rfl fun _ => rfl

theorem objectTypeMember_sound : ReadsAll file .free .any objectTypeMember :=
  .choice_cons (.one (.node (.seq_cons (.opt .kw) (.seq_cons .kw (.seq_cons optTypeParameters_sound
      (.seq_cons (.part formalParameters_sound) (.seq_cons (.opt (.part typeAscription_sound))
        .seq_nil)))))))
    (.choice_cons (.one indexSignature_sound) (.choice_cons (.one objectTypeMember_named_sound)
      (.choice_cons (.one (.node (.seq_cons signature_sound .seq_nil))) .choice_nil)))

theorem memberEnd_sound : ReadsAll file pre .free memberEnd :=
  .choice_cons .sign (.choice_cons .statementEnd .choice_nil)

theorem objectType_sound {kind : Kind} {hkind : kind.isPlain = true}
    (hordinary : kind.isOrdinary = true := by decide)
    (hcolon : (kind == .jsxNamespaceName) = false := by decide) :
    ReadsOne file pre .free (objectType kind hkind) := by
  refine .node (hcolon ▸ ?_) hordinary
  have lead : ReadsAll file .free .free (alt [sign ",", sign ";"]) :=
    .choice_cons .sign (.choice_cons .sign .choice_nil)
  exact .seq_cons .sign (.seq_cons (.opt lead) (.seq_cons (.optSeq (.seq_cons
    (.sepBy1 memberEnd_sound objectTypeMember_sound) (.seq_cons (.opt memberEnd_sound) .seq_nil)))
    (.seq_cons .sign .seq_nil)))

theorem tupleLabel_sound : ReadsOne file .free .free
    (choice [node .restPattern [sign "...", one identifier], identifier]) :=
  .choice_cons (.node (.seq_cons .sign (.seq_cons (.one .identifier) .seq_nil)))
    (.choice_cons .identifier .choice_nil)

theorem tupleMember_sound : ReadsAll file .free .any tupleMember :=
  .choice_cons (.one (.node (.seq_cons (.part .identifier) (.seq_cons .sign
      (.seq_cons (.part typeAscription_sound) .seq_nil)))))
    (.choice_cons (.one (.node (.seq_cons (.part tupleLabel_sound)
      (.seq_cons (.part typeAscription_sound) .seq_nil))))
    (.choice_cons (.one (.node (.seq_cons .sign (.seq_cons (.one enclosedType_sound) .seq_nil))))
    (.choice_cons (.one (.followed enclosedType_sound (.opt .sign))) .choice_nil)))

theorem queried_base_sound : ReadsOne file .free .free (choice [
    lexeme .importKeyword (wordThat (· == "import")), lexeme .this (wordThat (· == "this")), identifier]) :=
  .choice_cons .word (.choice_cons .word (.choice_cons .identifier .choice_nil))

theorem queried_dots_sound : ReadsOne file .free .loose (choice [markUnless "." ".", mark "?."]) :=
  .choice_cons .dot (.choice_cons .mark .choice_nil)

theorem queried_index_sound : ReadsOne file .free .any (choice [string, number, anyWord .predefinedType]) :=
  .choice_cons .string (.choice_cons .number (.choice_cons .anyWord .choice_nil))

theorem queried_step_sound {start : Nat} {base : Piece file} (hstart : Level.free.At file start) :
    Reads .free .free (GoesOn file start [base]) (queried.step base) :=
  .choice_cons (.goesOnMember hstart (.memberTail (.one queried_dots_sound) memberName_sound))
    (.choice_cons (.goesOn (.seq_cons .sign
      (.seq_cons (.part queried_index_sound) (.seq_cons .sign .seq_nil))))
    (.choice_cons (.goesOn (.part (.node (.seq_cons .sign (.seq_cons
      (sparseList_sound (.one enclosedValue_sound)) (.seq_cons .sign .seq_nil)))))) .choice_nil))

theorem queried_sound : ReadsOne file .free .free queried :=
  .gathering fun _ hstart => .gatherOne queried_base_sound fun _ =>
    .extendThen (fun _ => queried_step_sound hstart) (fun _ => .mayGoOn (.opt (.part typeArguments_sound))) _

theorem templateText_sound {stops : String} : ReadsAll file pre .any (templateText stops) :=
  .one (.leafHere_one (leaves_any _) (Eq.refl true))

theorem templateLiteralType_hole_sound : ReadsAll file .any .free templateLiteralType.hole :=
  .one (.node (.seq_cons (.one .markHere) (.seq_cons (.one enclosedType_sound)
    (.seq_cons .sign .seq_nil))))

theorem templateLiteralType_sound : ReadsOne file pre .free templateLiteralType :=
  .node (.seq_cons .sign (.seq_cons (.starAny (.choice_cons templateText_sound
    (.choice_cons templateLiteralType_hole_sound .choice_nil))) (.seq_cons (.one .markHere) .seq_nil)))

theorem tupleType_sound :
    ReadsOne file .free .free (node .tupleType [sign "[", opt (commaList tupleMember), sign "]"]) :=
  .node (.seq_cons .sign (.seq_cons (.opt (commaList_sound tupleMember_sound)) (.seq_cons .sign .seq_nil)))

theorem typeOperand_signed_sound : ReadsOne file .free .any
    (node .literalType [one (node .unaryExpression [alt [sign "-", sign "+"], one number])]) :=
  .node (.seq_cons (.one (.node (.seq_cons (.choice_cons .sign (.choice_cons .sign .choice_nil))
    (.seq_cons (.one .number) .seq_nil)))) .seq_nil)

theorem typeOperand_functionType_sound : ReadsOne file .free .any (typeOperand.functionType ends) :=
  .node (.seq_cons (.opt (.part typeParameters_sound)) (.seq_cons (.part formalParameters_sound)
    (.seq_cons .sign (.seq_cons (.part resultType_sound) .seq_nil))))

theorem typeOperand_constructorType_sound : ReadsOne file .free .any (typeOperand.constructorType ends) :=
  .node (.seq_cons (.opt .kw) (.seq_cons .kw (.seq_cons (.opt (.part typeParameters_sound))
    (.seq_cons (.part formalParameters_sound) (.seq_cons .sign (.seq_cons (.part .type) .seq_nil))))))

theorem typeOperand_extension_sound : ReadsAll file .free .any (seq [
    kw "extends", one (enter (.type 1 false)), do notAhead (mark "?"); pure []]) :=
  .seq_cons .kw (.seq_cons (.one .type) (.seq_cons (.peek (.notAhead _) fun _ => .nil) .seq_nil))

theorem typeOperand_worded_sound : ReadsOne file .free .any (typeOperand.worded ends) := by
  have named : ReadsOne file .free .any namedType := .forget namedType_sound
  have literal {kind : Kind} {word : String} {hkind : kind.isPlain = true}
      (hordinary : kind.isOrdinary = true := by decide) : ReadsOne file .free .any
        (node .literalType [one (typeOperand.word kind word hkind)]) :=
    .forget (.node (.seq_cons (.one (.word hordinary)) .seq_nil))
  refine .peek (.peekLexeme _) fun w => ?_
  split
  · exact .choice_cons (.node (.seq_cons .kw (.seq_cons (.one .type) .seq_nil)))
      (.choice_cons named .choice_nil)
  · exact .choice_cons (.node (.seq_cons .kw (.seq_cons (.one .type) .seq_nil)))
      (.choice_cons named .choice_nil)
  · exact .choice_cons (.node (.seq_cons .kw (.seq_cons .kw .seq_nil))) (.choice_cons named .choice_nil)
  · exact .choice_cons (.node (.seq_cons .kw (.seq_cons (.one typeName_sound)
        (.seq_cons (.optSeq typeOperand_extension_sound) .seq_nil))))
      (.choice_cons (.node (.seq_cons .kw (.seq_cons (.one typeName_sound) .seq_nil)))
      (.choice_cons named .choice_nil))
  · exact typeOperand_constructorType_sound
  · exact .choice_cons typeOperand_constructorType_sound (.choice_cons named .choice_nil)
  · exact .node (.seq_cons .kw (.seq_cons (.one (.forget queried_sound)) .seq_nil))
  · exact .forget queried_sound
  · exact .node (.seq_cons (.forget .kw) .seq_nil)
  · exact literal
  · exact literal
  · exact literal
  · exact literal
  · exact .forget .keyword
  · split
    · exact .choice_cons (.checked .word fun _ => .notAhead _) (.choice_cons named .choice_nil)
    · exact named
  · exact .refuse

theorem typeOperand_sound : ReadsOne file .free .any (typeOperand ends) := by
  refine .peek .peekChar fun c => ?_
  split
  · exact .choice_cons typeOperand_functionType_sound (.choice_cons (.node (.seq_cons .sign
      (.seq_cons (.one enclosedType_sound) (.seq_cons .sign .seq_nil)))) .choice_nil)
  · exact typeOperand_functionType_sound
  · exact .forget tupleType_sound
  · exact .forget objectType_sound
  · exact .forget templateLiteralType_sound
  · exact .node (.seq_cons (.forget .sign) .seq_nil)
  · exact .node (.seq_cons .sign (.seq_cons (.one .type) .seq_nil))
  · exact .node (.seq_cons (.one (.forget .string)) .seq_nil)
  · exact .node (.seq_cons (.one (.forget .string)) .seq_nil)
  · exact typeOperand_signed_sound
  · exact typeOperand_signed_sound
  · split
    · exact .node (.seq_cons (.one .number) .seq_nil)
    · exact typeOperand_worded_sound
  · exact .refuse

/-! ### Operators -/

theorem unlessEnded_peeks : Peeks (unlessEnded ends : Reader file Unit) := by
  unfold unlessEnded
  split
  · exact .bind (.endInsertable _) fun _ => .when? _
  · exact .pure ()

theorem postfixType_sound : ReadsOne file .free .any (postfixType ends) :=
  .extended typeOperand_sound fun _ _ _ => .peek unlessEnded_peeks fun _ =>
    .choice_cons (.goesOn (g := fun p => p) (.seq_cons .sign (.seq_cons (.forget .sign) .seq_nil)))
      (.choice_cons (.goesOn (g := fun p => p) (.seq_cons .sign (.seq_cons (.one enclosedType_sound)
        (.seq_cons (.forget .sign) .seq_nil)))) .choice_nil)

theorem typeExpression_condition_sound : ReadsAll file .any .any (seq [
    kw "extends", part .right (enter (.type 1 false)), sign "?", part .consequence enclosedType,
    sign ":", part .alternative (enter (.type 0 ends))]) :=
  .seq_cons .kw (.seq_cons (.part .type) (.seq_cons .sign (.seq_cons (.part enclosedType_sound)
    (.seq_cons .sign (.seq_cons (.part .type) .seq_nil)))))

theorem typeExpression_joined_sound {kind : Kind} {hkind : kind.isPlain = true}
    {operator : Reader file (Piece file)} {next : Nat}
    (hoperator : ∀ {pre : Level}, ReadsOne file pre .free operator)
    (hordinary : kind.isOrdinary = true := by decide)
    (hcolon : (kind == .jsxNamespaceName) = false := by decide) :
    ReadsOne file .free .any (typeExpression.joined ends kind hkind operator next) := by
  refine .gathering fun _ _ => .gather (.opt (.one hoperator)) fun lead => .gatherOne .type fun first =>
    .goesFrom (.extendOn (fun _ => .goesOn (g := fun p => p) (.seq_cons (.one hoperator)
      (.seq_cons (.one .type) .seq_nil)) (fun _ _ _ h => h) hordinary hcolon) _) fun _ h => ?_
  split
  · rename_i hnone
    rwa [List.isEmpty_iff.1 hnone] at h
  · exact h.whole hordinary hcolon fun hnone => absurd hnone (by simp)

theorem typeExpression_sound {level : Nat} : ReadsOne file .free .any (typeExpression level ends) := by
  unfold typeExpression
  split
  · exact .gathering fun _ _ => .gatherOne .type fun _ =>
      .choice_cons (.peek unlessEnded_peeks fun _ => .goesOn typeExpression_condition_sound)
        (.choice_cons .stay .choice_nil)
  · exact typeExpression_joined_sound .markUnless
  · exact typeExpression_joined_sound .markUnless
  · exact postfixType_sound

end WebMigration.Syntax.Grammar
