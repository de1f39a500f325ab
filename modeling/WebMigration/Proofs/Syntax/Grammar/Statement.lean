import WebMigration.Proofs.Module.Source
import WebMigration.Proofs.Syntax.Grammar.Declaration

/-!
# Sound statements and files

Statements, and from them whole files: in the tree of a file all names stand apart, but for those in
a name with a colon.
-/

namespace WebMigration.Syntax.Grammar

open Reader Fragment

variable {file : List Char} {pre : Level}

theorem body_sound : ReadsAll file .free .free body := .part .statement

theorem statementBlock_sound : ReadsOne file pre .free statementBlock :=
  .node (.seq_cons .sign (.seq_cons (.star (.one .statement)) (.seq_cons .sign .seq_nil)))

theorem expressionStatement_sound : ReadsOne file .free .free expressionStatement :=
  .node (.seq_cons (.one expressions_sound) (.seq_cons .statementEnd .seq_nil))

theorem labeledStatement_sound : ReadsOne file .free .free labeledStatement :=
  .node (.seq_cons (.part .freeWord) (.seq_cons .sign (.seq_cons body_sound .seq_nil)))

theorem elseClause_sound :
    ReadsOne file pre .free (node .elseClause [kw "else", one (enter .statement)]) :=
  .node (.seq_cons .kw (.seq_cons (.one .statement) .seq_nil))

theorem ifStatement_sound : ReadsOne file pre .free ifStatement :=
  .node (.seq_cons .kw (.seq_cons (.part parenthesized_sound) (.seq_cons (.part .statement)
    (.seq_cons (.opt (.part elseClause_sound)) .seq_nil))))

theorem switchBranch_sound : ReadsAll file .free .free (alt [
    one (node .switchCase [kw "case", part .value (expressions .enclosed), sign ":", star body]),
    one (node .switchDefault [kw "default", sign ":", star body])]) :=
  .choice_cons (.one (.node (.seq_cons .kw (.seq_cons (.part expressions_sound) (.seq_cons .sign
      (.seq_cons (.star body_sound) .seq_nil))))))
    (.choice_cons (.one (.node (.seq_cons .kw (.seq_cons .sign (.seq_cons (.star body_sound) .seq_nil)))))
      .choice_nil)

theorem switchStatement_sound : ReadsOne file pre .free switchStatement :=
  .node (.seq_cons .kw (.seq_cons (.part parenthesized_sound) (.seq_cons (.part (.node (.seq_cons .sign
    (.seq_cons (.star switchBranch_sound) (.seq_cons .sign .seq_nil))))) .seq_nil)))

theorem memberLoopHead_operator_sound : ReadsOne file .any .free (choice [keyword "in", keyword "of"]) :=
  .choice_cons .keyword (.choice_cons .keyword .choice_nil)

theorem memberLoopHead_kind_sound : ReadsOne file .free .free (choice [keyword "let", keyword "const"]) :=
  .choice_cons .keyword (.choice_cons .keyword .choice_nil)

theorem memberLoopHead_target_sound : ReadsAll file .free .any (alt [
    seq [part .kind (keyword "var"), part .left bindingTarget,
      opt (defaultValue .value ⟨false, false, true⟩)],
    seq [part .kind (choice [keyword "let", keyword "const"]), part .left bindingTarget],
    part .left (choice [destructuring, accessChain, parenthesized])]) :=
  .choice_cons (.seq_cons (.part .keyword) (.seq_cons (.part bindingTarget_sound)
      (.seq_cons (.opt defaultValue_sound) .seq_nil)))
    (.choice_cons (.seq_cons (.part memberLoopHead_kind_sound)
      (.seq_cons (.part bindingTarget_sound) .seq_nil))
    (.choice_cons (.part (.choice_cons destructuring_sound (.choice_cons accessChain_sound
      (.choice_cons parenthesized_sound .choice_nil)))) .choice_nil))

theorem memberLoopHead_sound : ReadsAll file pre .free memberLoopHead :=
  .seq_cons .sign (.seq_cons memberLoopHead_target_sound
    (.seq_cons (.part memberLoopHead_operator_sound)
      (.seq_cons (.part expressions_sound) (.seq_cons .sign .seq_nil))))

theorem emptyStatement_sound :
    ReadsOne file pre .free (lexeme .emptyStatement (markLength? ";" "")) :=
  .lexeme (leaves_mark "" (freesBehind_text rfl rfl))

theorem counterLoopHead_initializer_sound : ReadsAll file .free .free (alt [
    part .initializer (variableStatement ⟨false, false, false⟩ fun _ => sign ";"),
    seq [part .initializer (expressions ⟨false, false, false⟩), sign ";"],
    part .initializer (lexeme .emptyStatement (markLength? ";" ""))]) :=
  .choice_cons (.part (variableStatement_sound fun _ => .sign))
    (.choice_cons (.seq_cons (.part expressions_sound) (.seq_cons .sign .seq_nil))
    (.choice_cons (.part emptyStatement_sound) .choice_nil))

theorem counterLoopHead_condition_sound : ReadsAll file .free .free (alt [
    seq [part .condition (expressions ⟨false, false, false⟩), sign ";"],
    part .condition (lexeme .emptyStatement (markLength? ";" ""))]) :=
  .choice_cons (.seq_cons (.part expressions_sound) (.seq_cons .sign .seq_nil))
    (.choice_cons (.part emptyStatement_sound) .choice_nil)

theorem counterLoopHead_sound : ReadsAll file pre .free counterLoopHead :=
  .seq_cons .sign (.seq_cons counterLoopHead_initializer_sound
    (.seq_cons counterLoopHead_condition_sound
      (.seq_cons (.opt (.part expressions_sound)) (.seq_cons .sign .seq_nil))))

theorem forStatement_sound : ReadsOne file pre .free forStatement :=
  .choice_cons (.node (.seq_cons .kw (.seq_cons (.opt .kw) (.seq_cons memberLoopHead_sound
      (.seq_cons body_sound .seq_nil)))))
    (.choice_cons (.node (.seq_cons .kw (.seq_cons counterLoopHead_sound (.seq_cons body_sound .seq_nil))))
      .choice_nil)

theorem doStatement_sound : ReadsOne file pre .free doStatement :=
  .node (.seq_cons .kw (.seq_cons body_sound (.seq_cons .kw (.seq_cons (.part parenthesized_sound)
    (.seq_cons .optionalStatementEnd .seq_nil)))))

theorem catchClause_sound : ReadsOne file .free .free (node .catchClause [kw "catch",
    optSeq [sign "(", part .parameter bindingTarget, ascription false, sign ")"], part .body block]) :=
  .node (.seq_cons .kw (.seq_cons (.optSeq (.seq_cons .sign (.seq_cons (.part bindingTarget_sound)
    (.seq_cons ascription_sound (.seq_cons .sign .seq_nil))))) (.seq_cons (.part .block) .seq_nil)))

theorem finallyClause_sound :
    ReadsOne file pre .free (node .finallyClause [kw "finally", part .body block]) :=
  .node (.seq_cons .kw (.seq_cons (.part .block) .seq_nil))

theorem tryStatement_sound : ReadsOne file pre .free tryStatement :=
  .node (.seq_cons .kw (.seq_cons (.part .block) (.seq_cons (.opt (.part catchClause_sound))
    (.seq_cons (.opt (.part finallyClause_sound)) .seq_nil))))

theorem jump_label_sound : ReadsAll file .free .free (do
    if ← endInsertable .plain then pure [] else opt (part .label (freeWord .statementIdentifier))) := by
  refine .peek (.endInsertable _) fun ended => ?_
  split
  · exact .nil
  · exact .opt (.part .freeWord)

theorem jump_sound {kind : Kind} {word : String} {hkind : kind.isPlain = true}
    (hordinary : kind.isOrdinary = true := by decide)
    (hcolon : (kind == .jsxNamespaceName) = false := by decide) :
    ReadsOne file pre .free (jump kind word hkind) :=
  .node (hcolon ▸ .seq_cons .kw (.seq_cons jump_label_sound (.seq_cons .statementEnd .seq_nil))) hordinary

theorem returnStatement_value_sound : ReadsAll file .free .free (do
    if ← endInsertable .plain then pure []
    else alt [
      seq [one (expressions .final), statementEnd .operand],
      statementEnd .plain]) := by
  refine .peek (.endInsertable _) fun ended => ?_
  split
  · exact .nil
  · exact .choice_cons (.seq_cons (.one expressions_sound) (.seq_cons .statementEnd .seq_nil))
      (.choice_cons .statementEnd .choice_nil)

theorem returnStatement_sound : ReadsOne file pre .free returnStatement :=
  .node (.seq_cons .kw (.seq_cons returnStatement_value_sound .seq_nil))

theorem reservedStatement?_sound {word : String} {r : Reader file (Piece file)}
    (h : reservedStatement? word = some r) : ReadsOne file .free .free r := by
  have hdeclaration : ReadsOne file .free .free declaration := declarationUpTo_sound 4
  have hdeclared : ReadsOne file .free .free (choice [declaration, expressionStatement]) :=
    .choice_cons hdeclaration (.choice_cons expressionStatement_sound .choice_nil)
  unfold reservedStatement? at h
  split at h
  · exact Option.some.inj h ▸ ifStatement_sound
  · exact Option.some.inj h ▸ forStatement_sound
  · exact Option.some.inj h ▸
      .node (.seq_cons .kw (.seq_cons (.part parenthesized_sound) (.seq_cons body_sound .seq_nil)))
  · exact Option.some.inj h ▸ doStatement_sound
  · exact Option.some.inj h ▸ switchStatement_sound
  · exact Option.some.inj h ▸ tryStatement_sound
  · exact Option.some.inj h ▸ returnStatement_sound
  · exact Option.some.inj h ▸ jump_sound
  · exact Option.some.inj h ▸ jump_sound
  · exact Option.some.inj h ▸
      .node (.seq_cons .kw (.seq_cons (.one expressions_sound) (.seq_cons .statementEnd .seq_nil)))
  · exact Option.some.inj h ▸ .node (.seq_cons .kw (.seq_cons .statementEnd .seq_nil))
  · exact Option.some.inj h ▸
      .node (.seq_cons .kw (.seq_cons (.part parenthesized_sound) (.seq_cons body_sound .seq_nil)))
  · exact Option.some.inj h ▸ hdeclaration
  · exact Option.some.inj h ▸ hdeclaration
  · exact Option.some.inj h ▸ exportStatement_sound
  · exact Option.some.inj h ▸ .choice_cons importStatement_sound
      (.choice_cons importAlias_sound (.choice_cons expressionStatement_sound .choice_nil))
  · exact Option.some.inj h ▸ hdeclared
  · exact Option.some.inj h ▸ hdeclared
  · cases h

theorem statement_sound : ReadsOne file .free .free statement := by
  have hlabeled : ReadsOne file .free .free (choice [labeledStatement, expressionStatement]) :=
    .choice_cons labeledStatement_sound (.choice_cons expressionStatement_sound .choice_nil)
  refine .peek .peekChar fun c => ?_
  split
  · exact .refuse
  · exact emptyStatement_sound
  · exact .choice_cons statementBlock_sound (.choice_cons expressionStatement_sound .choice_nil)
  · exact .choice_cons exportStatement_sound (.choice_cons (declarationUpTo_sound 4)
      (.choice_cons expressionStatement_sound .choice_nil))
  · refine .peek (.peekLexeme _) fun w => ?_
    split
    · split
      · exact reservedStatement?_sound ‹_›
      · split
        · exact .choice_cons (declarationUpTo_sound 4) hlabeled
        · exact hlabeled
    · exact expressionStatement_sound

/-! ### Files -/

theorem hashBangLine_sound : ReadsAll file pre .free hashBangLine := by
  refine .one (.leafHere_one (Shuts.leaves (fun cs n hn => ?_) .free))
  split at hn
  · rename_i r
    cases hn
    rw [Nat.add_comm, List.drop_succ_cons, List.drop_succ_cons]
    refine shut_drop_takeWhile (fun c hc => ?_) r
    refine not_isIdentifierPart_of_isBlank (isBlank_of_endsLineComment ?_)
    simp only [Bool.and_eq_false_iff, bne_eq_false_iff_eq] at hc
    rcases hc with rfl | rfl <;> rfl
  · cases hn

/-- Every construct is sound if the constructs below it are. -/
theorem read_sound (goal : Goal) : ReadsOne file goal.before goal.after (read goal) := by
  cases goal with
  | statement => exact statement_sound
  | block => exact statementBlock_sound
  | expression level placement => exact expression_sound
  | pattern => exact pattern_sound
  | type level ends => exact typeExpression_sound
  | markup => exact element_sound

/-- The constructs that are read with some fuel are sound. -/
theorem readWith_sound (d : Dialect) (fuel : Nat) : (⟨d, readWith d fuel⟩ : Surroundings file).Sound := by
  induction fuel with
  | zero =>
    rintro goal p a q - ⟨⟩
  | succ fuel ih =>
    intro goal p a q hp hread
    refine (read_sound goal _ ih p a q hp hread).imp_right fun hsound => ⟨hsound, ?_⟩
    rintro rfl
    exact element_field _ p a q hread

theorem program_statements_sound :
    ReadsAll file .free .free (seq [opt hashBangLine, star (one (enter .statement))]) :=
  .seq_cons (.opt hashBangLine_sound) (.seq_cons (.star (.one .statement)) .seq_nil)

/-- The statements of a file are sound, and only blanks and comments are behind them. -/
theorem program_sound : Reads .free .free (fun k ps k' => ∃ j, j ≤ k' ∧ Sound file false k ps j)
    (program : Fragment file) := by
  have hgap : Reads .free .free (fun k _ k' => k ≤ k')
      (fun _ p => .ok p.afterGap p.afterGap : Reader file (Progress file)) := by
    rintro s hs p _ _ hp ⟨⟩
    exact ⟨at_afterGap hp, le_afterGap p⟩
  refine .bind program_statements_sound fun _ ps j _ hps => .bind hgap fun k after k' _ hle => ?_
  split
  · exact .pure fun _ hk => ⟨hk, fun hk' hj => ⟨j, hk' ▸ hj ▸ hle, hps⟩⟩
  · exact .refuse

end WebMigration.Syntax.Grammar

namespace WebMigration.Syntax

/-- **In the tree of a file all names stand apart**, but for those in a name with a colon, and all nodes
are formed as the grammar says. -/
theorem parse_settled {d : Dialect} {text : List Char} {root : Piece text} (h : parse d text = .ok root) :
    root.node.Settled text false := by
  unfold parse at h
  dsimp only at h
  split at h
  · cases h
  · rename_i statements after hread
    cases h
    obtain ⟨j, hj, hsound⟩ :=
      (Grammar.program_sound _ (Grammar.readWith_sound d _) (.start text) _ _ at_zero hread).2
    have hown : (Piece.program after.comments.reverse statements).node.StandsApart text :=
      Node.standsApart_of_isOrdinary (Eq.refl true)
    have hend : Node.Row j [] (byteSize text) := Nat.le_trans hj after.offset.2.le
    have hrow := hsound.row.append hend
    rw [List.append_nil] at hrow
    refine .node (fun _ => hown) (Node.formed_of_isCommon (Eq.refl true) ?_ ?_) ?_
    · exact Node.row_withComments _ (hrow.sublist List.filter_sublist)
    · refine Node.kind_withComments (P := fun kind => kind.isPairedTag = false) _ rfl fun n hn => ?_
      obtain ⟨p, hp, rfl⟩ := List.mem_map.1 hn
      exact hsound.tags p hp
    · refine Node.settled_withComments _ fun n hn => ?_
      obtain ⟨p, hp, rfl⟩ := List.mem_map.1 hn
      exact hsound.settled p hp

end WebMigration.Syntax

namespace WebMigration.Module.Source

open Syntax

/-- The tree of a file that parses is settled. -/
theorem parseAs_root_settled [Salvage] {dialect : Dialect} {text path : String}
    (h : (parseAs dialect text path).hasError = false) :
    (parseAs dialect text path).root.Settled text.toList false := by
  obtain ⟨piece, hparse, hpiece⟩ := exists_piece h
  rw [hpiece]
  exact parse_settled hparse

end WebMigration.Module.Source
