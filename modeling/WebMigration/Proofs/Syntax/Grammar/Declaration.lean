import WebMigration.Proofs.Syntax.Grammar.Expression
import WebMigration.Syntax.Grammar.Declaration

/-!
# Sound declarations

Imports, exports and declarations, which all stop where a name may begin.
-/

namespace WebMigration.Syntax.Grammar

open Reader Fragment

variable {file : List Char} {pre : Level} {placement : Placement}

/-! ### Imports -/

theorem fromClause_sound : ReadsAll file pre .free fromClause :=
  .seq_cons .kw (.seq_cons (.part .string) .seq_nil)

theorem identifier_simple :
    Reads .free .free (fun k p k' => Sound file false k [p] k' ∧ p.node.Simple) identifier := by
  have hname : Yields (·.node.Simple) (freeWord .identifier : Reader file (Piece file)) :=
    .simple_lexeme (nonempty_wordThat _)
  exact .yields .identifier hname

theorem importedName_simple :
    Reads .free .free (fun k p k' => Sound file false k [p] k' ∧ p.node.Simple) importedName :=
  .choice_cons identifier_simple (.choice_cons (.yields .string .simple_quotation)
    (.choice_cons (.yields .name (.simple_lexeme (nonempty_wordThat _))) .choice_nil))

/-- The words that mark an import of types play no part in it. -/
theorem typeOnlyMark_unplayed {field : Field} : Reads pre .free (Unplayed file field) typeOnlyMark :=
  .peek .dialect fun _ => .peek (.when? _) fun _ =>
    .choice_cons (.oneUnplayed .keyword .field_keyword)
      (.choice_cons (.oneUnplayed .keyword .field_keyword) .choice_nil)

theorem typeOnlyMark_sound : ReadsAll file pre .free typeOnlyMark :=
  have hmark : Reads pre .free (Unplayed file .name) typeOnlyMark := typeOnlyMark_unplayed
  hmark.imp fun _ _ _ _ hps => hps.sound

theorem namespaceImport_sound : ReadsOne file pre .free namespaceImport :=
  .node (.seq_cons .sign (.seq_cons .kw (.seq_cons (.one .identifier) .seq_nil)))

theorem importSpecifier_other_sound : ReadsAll file .free .free (seq [kw "as", part .alias identifier]) :=
  .seq_cons .kw (.seq_cons (.part .identifier) .seq_nil)

theorem importSpecifier_renamed_sound : Reads .free .free (SoundNamed file)
    (seq [part .name importedName, kw "as", part .alias identifier]) :=
  .seq_name importedName_simple importSpecifier_other_sound

theorem importSpecifier_plain_sound :
    Reads .free .free (SoundNamed file) (seq [part .name identifier]) :=
  .seq_name identifier_simple .seq_nil

/-- An import of a type, behind the word that marks it. -/
theorem importSpecifier_typeOnly_sound {fs : List (Fragment file)}
    (h : Reads .free .free (SoundNamed file) (seq fs)) :
    Reads .free .free (SoundNamed file) (seq (typeOnlyMark :: fs)) :=
  .seq_consOf typeOnlyMark_unplayed h fun hps hqs => hps.named.append hqs

theorem importSpecifier_sound : ReadsOne file .free .free importSpecifier :=
  .choice_cons (.nodeNamed importSpecifier_renamed_sound)
    (.choice_cons (.nodeNamed (importSpecifier_typeOnly_sound importSpecifier_renamed_sound))
    (.choice_cons (.nodeNamed (importSpecifier_typeOnly_sound importSpecifier_plain_sound))
    (.choice_cons (.nodeNamed importSpecifier_plain_sound) .choice_nil)))

theorem namedImports_sound : ReadsOne file pre .free namedImports :=
  .node (.seq_cons .sign (.seq_cons (.opt (commaList_sound (.forget (.one importSpecifier_sound))))
    (.seq_cons .sign .seq_nil)))

theorem importClause_more_sound : ReadsOne file .free .free (choice [namespaceImport, namedImports]) :=
  .choice_cons namespaceImport_sound (.choice_cons namedImports_sound .choice_nil)

theorem defaultImport_sound : ReadsOne file .free .free (node .importClause [
    one identifier, optSeq [sign ",", one (choice [namespaceImport, namedImports])]]) :=
  .node (.seq_cons (.one .identifier) (.seq_cons (.optSeq (.seq_cons .sign
    (.seq_cons (.one importClause_more_sound) .seq_nil))) .seq_nil))

theorem importClause_sound : ReadsOne file .free .free importClause :=
  .choice_cons (.node (.seq_cons (.one namespaceImport_sound) .seq_nil))
    (.choice_cons (.node (.seq_cons (.one namedImports_sound) .seq_nil))
    (.choice_cons defaultImport_sound .choice_nil))

theorem dottedName_sound : ReadsOne file .free .free
    (choice [nestedName .nestedIdentifier .propertyIdentifier, identifier]) :=
  .choice_cons (nestedName_sound .freeWord) (.choice_cons .identifier .choice_nil)

theorem importAlias_sound : ReadsOne file pre .free importAlias :=
  .peek .dialect fun _ => .peek (.when? _) fun _ => .node (.seq_cons .kw (.seq_cons (.one .identifier)
    (.seq_cons .equals (.seq_cons (.one dottedName_sound)
      (.seq_cons (.peek (.notAhead _) fun _ => .statementEnd) .seq_nil)))))

theorem importRequireClause_sound : ReadsAll file .free .free importRequireClause :=
  .peek .dialect fun _ => .peek (.when? _) fun _ => .one (.node (.seq_cons (.one .identifier)
    (.seq_cons .equals (.seq_cons .kw (.seq_cons .sign (.seq_cons (.part .string)
      (.seq_cons .sign .seq_nil)))))))

theorem importTail_sound : ReadsAll file .free .free importTail :=
  .choice_cons (.seq_cons (.one importClause_sound) (.seq_cons fromClause_sound .seq_nil))
    (.choice_cons importRequireClause_sound (.choice_cons (.part .string) .choice_nil))

theorem importAttribute_sound :
    ReadsOne file pre .free (node .importAttribute [kw "with", one objectLiteral]) :=
  .node (.seq_cons .kw (.seq_cons (.one objectLiteral_sound) .seq_nil))

theorem importStatement_tail_sound :
    ReadsAll file .free .free (alt [seq [typeOnlyMark, importTail], importTail]) :=
  .choice_cons (.seq_cons typeOnlyMark_sound (.seq_cons importTail_sound .seq_nil))
    (.choice_cons importTail_sound .choice_nil)

theorem importStatement_rest_sound : ReadsAll file .free .free (seq [
    alt [seq [typeOnlyMark, importTail], importTail],
    optSeq [one (node .importAttribute [kw "with", one objectLiteral])], statementEnd .plain]) :=
  .seq_cons importStatement_tail_sound (.seq_cons (.optSeq (.seq_cons (.one importAttribute_sound) .seq_nil))
    (.seq_cons .statementEnd .seq_nil))

theorem importStatement_sound : ReadsOne file pre .free importStatement :=
  .bind .spelled fun _ _ _ _ hword => .map importStatement_rest_sound fun _ _ _ _ hrest hj =>
    hword.importing (hj ▸ hrest)

/-! ### Exports -/

theorem exportName_sound : ReadsOne file .free .free exportName :=
  .choice_cons .identifier (.choice_cons .string (.choice_cons .keyword .choice_nil))

theorem exportClause_other_sound : ReadsAll file .free .free (seq [kw "as", part .alias exportName]) :=
  .seq_cons .kw (.seq_cons (.part exportName_sound) .seq_nil)

theorem exportClause_specifier_sound : ReadsOne file .free .free exportSpecifier :=
  .choice_cons (.node (.seq_cons (.part exportName_sound) exportClause_other_sound))
    (.choice_cons (.node (.seq_cons typeOnlyMark_sound
      (.seq_cons (.part exportName_sound) exportClause_other_sound)))
    (.choice_cons (.node (.seq_cons typeOnlyMark_sound (.seq_cons (.part exportName_sound) .seq_nil)))
    (.choice_cons (.node (.seq_cons (.part exportName_sound) .seq_nil)) .choice_nil)))

theorem exportClause_sound : ReadsOne file pre .free exportClause :=
  .node (.seq_cons .sign (.seq_cons (.opt (commaList_sound (.forget (.one exportClause_specifier_sound))))
    (.seq_cons .sign .seq_nil)))

theorem exportList_origin_sound : ReadsAll file .free .free (seq [fromClause, statementEnd .plain]) :=
  .seq_cons fromClause_sound (.seq_cons .statementEnd .seq_nil)

theorem namespaceExport_sound :
    ReadsOne file pre .free (node .namespaceExport [sign "*", kw "as", one exportName]) :=
  .node (.seq_cons .sign (.seq_cons .kw (.seq_cons (.one exportName_sound) .seq_nil)))

theorem exportList_sound : ReadsAll file pre .free exportList :=
  .choice_cons (.seq_cons .sign exportList_origin_sound)
    (.choice_cons (.seq_cons (.one namespaceExport_sound) exportList_origin_sound)
    (.choice_cons (.seq_cons (.one exportClause_sound) exportList_origin_sound)
    (.choice_cons (.seq_cons (.one exportClause_sound) (.seq_cons .statementEnd .seq_nil)) .choice_nil)))

theorem typedExport_sound : ReadsAll file pre .free typedExport :=
  .peek .dialect fun _ => .peek (.when? _) fun _ => .choice_cons
    (.seq_cons .kw (.seq_cons (.one exportClause_sound) (.seq_cons (.opt fromClause_sound)
      (.seq_cons .statementEnd .seq_nil))))
    (.choice_cons (.seq_cons .equals (.seq_cons (.one .expression) (.seq_cons .statementEnd .seq_nil)))
    (.choice_cons (.seq_cons .kw (.seq_cons .kw (.seq_cons (.one .identifier)
      (.seq_cons .statementEnd .seq_nil))))
    (.choice_cons (.one importAlias_sound) .choice_nil)))

/-! ### Declarations -/

theorem variableDeclarator_mark_sound :
    ReadsAll file .free .free (do let n ← sign "!"; ahead (mark ":"); return n) :=
  .checked .sign fun _ => .ahead _

theorem variableDeclarator_rest_sound :
    ReadsAll file .free .any (seq [ascription placement.ends, opt (defaultValue .value placement)]) :=
  .seq_cons ascription_sound (.seq_cons (.opt defaultValue_sound) .seq_nil)

theorem variableDeclarator_sound : ReadsOne file .free .any (variableDeclarator placement) := by
  refine .gathering fun _ _ => .gatherPart .name bindingTarget_sound fun _ => .peek .dialect fun d => ?_
  dsimp only
  split
  · exact .gather (.opt variableDeclarator_mark_sound) fun _ =>
      .gather variableDeclarator_rest_sound fun _ => .close rfl rfl (by simp)
  · exact .gather .nil fun _ => .gather variableDeclarator_rest_sound fun _ => .close rfl rfl (by simp)

section VariableStatement

variable {ending : EndContext → Fragment file}

theorem declarators_sound (h : ∀ context, ReadsAll file .any .free (ending context)) :
    ReadsAll file .free .free (declarators placement ending) :=
  .gathering fun _ _ => .gather (.sepBy1 .sign (.one variableDeclarator_sound)) fun _ =>
    .gather (h _) fun _ => .keep

/-- Declarators, given what may end their statement. -/
theorem variableStatement_sound (h : ∀ context, ReadsAll file .any .free (ending context)) :
    ReadsOne file pre .free (variableStatement placement ending) :=
  .choice_cons (.node (.seq_cons (.part (.choice_cons .keyword (.choice_cons .keyword .choice_nil)))
      (.seq_cons (declarators_sound h) .seq_nil)))
    (.choice_cons (.node (.seq_cons .kw (.seq_cons (declarators_sound h) .seq_nil))) .choice_nil)

end VariableStatement

theorem functionDeclaration_head_sound : ReadsAll file pre .free functionHead :=
  .seq_cons (.opt .kw) (.seq_cons .kw .seq_nil)

theorem functionDeclaration_sound : ReadsOne file pre .free functionDeclaration := by
  refine .gathered fun b => .gather functionDeclaration_head_sound fun _ =>
    .gather (.opt .sign) fun generator => .gather (.part .identifier) fun _ =>
    .gather signature_sound fun _ => .choice_cons
      (.gather (.part .block) fun _ => .close (by split <;> rfl) (by split <;> rfl) fun _ => rfl)
      (.choice_cons ?_ .choice_nil)
  refine .peek .dialect fun d => .whenThen fun h => ?_
  rw [Bool.and_eq_true, List.isEmpty_iff] at h
  obtain ⟨-, rfl⟩ := h
  rw [List.append_nil]
  exact .gather .statementEnd fun _ => .close rfl rfl fun _ => rfl

theorem abstractClass_sound : ReadsOne file pre .free (node .abstractClassDeclaration [
    star (part .decorator decorator), kw "abstract", kw "class", part .name className, classRest]) :=
  .node (.seq_cons (.star (.part decorator_sound)) (.seq_cons .kw (.seq_cons .kw
    (.seq_cons (.part className_sound) (.seq_cons classRest_sound .seq_nil)))))

theorem classDeclaration_sound : ReadsOne file pre .free classDeclaration :=
  .choice_cons (.node (.seq_cons (.star (.part decorator_sound)) (.seq_cons .kw
      (.seq_cons (.part className_sound) (.seq_cons classRest_sound .seq_nil)))))
    (.choice_cons (.peek .dialect fun _ => .peek (.when? _) fun _ => abstractClass_sound) .choice_nil)

theorem extendsTypeClause_sound : ReadsOne file pre .free
    (node .extendsTypeClause [kw "extends", sepBy1 (sign ",") (part .type namedType)]) :=
  .node (.seq_cons .kw (.seq_cons (.sepBy1 .sign (.part namedType_sound)) .seq_nil))

theorem interfaceDeclaration_sound : ReadsOne file pre .free interfaceDeclaration :=
  .node (.seq_cons .kw (.seq_cons (.part typeName_sound) (.seq_cons optTypeParameters_sound
    (.seq_cons (.opt (.one extendsTypeClause_sound)) (.seq_cons (.part objectType_sound) .seq_nil)))))

theorem enumMember_sound : ReadsAll file .free .any (alt [
    one (node .enumAssignment [part .name propertyName, defaultValue .value .enclosed]),
    part .name propertyName]) :=
  .choice_cons (.one (.node (.seq_cons (.part propertyName_sound)
    (.seq_cons defaultValue_sound .seq_nil)))) (.choice_cons (.part propertyName_sound) .choice_nil)

theorem enumDeclaration_sound : ReadsOne file pre .free enumDeclaration :=
  .node (.seq_cons (.opt .kw) (.seq_cons .kw (.seq_cons (.part .identifier) (.seq_cons
    (.part (.node (.seq_cons .sign (.seq_cons (.opt (commaList_sound enumMember_sound))
      (.seq_cons .sign .seq_nil)))))
    .seq_nil))))

theorem typeAliasDeclaration_sound : ReadsOne file pre .free typeAliasDeclaration :=
  .node (.seq_cons .kw (.seq_cons (.part typeName_sound) (.seq_cons optTypeParameters_sound
    (.seq_cons .equals (.seq_cons (.part .type) (.seq_cons .statementEnd .seq_nil))))))

theorem namespaceRest_name_sound : ReadsOne file .free .free
    (choice [string, nestedName .nestedIdentifier .propertyIdentifier, identifier]) :=
  .choice_cons .string (.choice_cons (nestedName_sound .freeWord) (.choice_cons .identifier .choice_nil))

theorem namespaceRest_sound : ReadsAll file .free .free namespaceRest :=
  .seq_cons (.part namespaceRest_name_sound) (.seq_cons (.opt (.part .block)) .seq_nil)

theorem typedDeclaration_ambient_sound {inner : Reader file (Piece file)}
    (h : ReadsOne file .free .free inner) : ReadsAll file .free .free (alt [
    seq [kw "global", one block],
    one inner,
    seq [kw "module", sign ".", one (anyWord .propertyIdentifier), sign ":",
      one (enter (.type 0 true)), statementEnd .plain]]) :=
  .choice_cons (.seq_cons .kw (.seq_cons (.one .block) .seq_nil)) (.choice_cons (.one h)
    (.choice_cons (.seq_cons .kw (.seq_cons (.one .dot) (.seq_cons (.one .anyWord) (.seq_cons .sign
      (.seq_cons (.one .type) (.seq_cons .statementEnd .seq_nil)))))) .choice_nil))

theorem typedDeclaration_sound {inner : Reader file (Piece file)} (h : ReadsOne file .free .free inner) :
    ReadsOne file pre .free (typedDeclaration inner) := by
  refine .peek .dialect fun _ => .peek (.when? _) fun _ => .peek (.peekLexeme _) fun w => ?_
  split
  · exact interfaceDeclaration_sound
  · exact typeAliasDeclaration_sound
  · exact enumDeclaration_sound
  · exact enumDeclaration_sound
  · exact .node (.seq_cons .kw (.seq_cons namespaceRest_sound .seq_nil))
  · exact .node (.seq_cons .kw (.seq_cons namespaceRest_sound .seq_nil))
  · exact importAlias_sound
  · exact .node (.seq_cons .kw (.seq_cons (typedDeclaration_ambient_sound h) .seq_nil))
  · exact .refuse

theorem declarationUpTo_sound (depth : Nat) : ReadsOne file .free .free (declarationUpTo depth) := by
  induction depth with
  | zero => exact .refuse
  | succ depth ih =>
    refine .choice_cons (typedDeclaration_sound ih) (.choice_cons ?_ .choice_nil)
    refine .peek (.peekLexeme _) fun w => ?_
    split
    · exact variableStatement_sound fun _ => .statementEnd
    · exact variableStatement_sound fun _ => .statementEnd
    · exact variableStatement_sound fun _ => .statementEnd
    · exact functionDeclaration_sound
    · exact functionDeclaration_sound
    · exact classDeclaration_sound
    · exact classDeclaration_sound
    · refine .peek .peekChar fun c => ?_
      split
      · exact classDeclaration_sound
      · exact .refuse

theorem exportStatement_value_sound : ReadsAll file .free .free (alt [
    part .declaration declaration,
    seq [part .value (enter (.expression 1 .final)), statementEnd .operand]]) :=
  .choice_cons (.part (declarationUpTo_sound 4)) (.choice_cons
    (.seq_cons (.part .expression) (.seq_cons .statementEnd .seq_nil)) .choice_nil)

theorem exportStatement_declared_sound : ReadsAll file .free .free (alt [
    part .declaration declaration,
    seq [kw "default", alt [
      part .declaration declaration,
      seq [part .value (enter (.expression 1 .final)), statementEnd .operand]]]]) :=
  .choice_cons (.part (declarationUpTo_sound 4))
    (.choice_cons (.seq_cons .kw (.seq_cons exportStatement_value_sound .seq_nil)) .choice_nil)

theorem exportStatement_sound : ReadsOne file .free .free exportStatement :=
  .choice_cons (.node (.seq_cons .kw (.seq_cons exportList_sound .seq_nil)))
    (.choice_cons (.node (.seq_cons .kw (.seq_cons typedExport_sound .seq_nil)))
    (.choice_cons (.node (.seq_cons (.star (.part decorator_sound)) (.seq_cons .kw
      (.seq_cons exportStatement_declared_sound .seq_nil)))) .choice_nil))

end WebMigration.Syntax.Grammar
