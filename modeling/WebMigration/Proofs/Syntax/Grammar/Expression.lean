import WebMigration.Proofs.Syntax.Grammar.Markup
import WebMigration.Syntax.Grammar.Expression

/-!
# Sound expressions

Operands, what follows them, operators, functions and classes.
-/

namespace WebMigration.Syntax.Grammar

open Reader Fragment

variable {file : List Char} {start : Nat} {base : Piece file} {pre : Level} {placement : Placement}

theorem expressions_sound : ReadsOne file .free .any (expressions placement) :=
  .followed .expression (.star (.seq_cons .sign (.seq_cons (.one .expression) .seq_nil)))

theorem spread_sound : ReadsOne file pre .any spread :=
  .node (.seq_cons .sign (.seq_cons (.one enclosedValue_sound) .seq_nil))

theorem valueOrSpread_sound : ReadsAll file .free .any (alt [one spread, one enclosedValue]) :=
  .choice_cons (.one spread_sound) (.choice_cons (.one enclosedValue_sound) .choice_nil)

theorem arguments_sound : ReadsOne file pre .free arguments :=
  .node (.seq_cons .sign (.seq_cons (sparseList_sound valueOrSpread_sound) (.seq_cons .sign .seq_nil)))

theorem templateString_escape_sound : ReadsAll file .any .any templateString.escape :=
  .one (.leafHere_one (leaves_any _) (Eq.refl true))

theorem templateString_substitution_sound : ReadsAll file .any .free templateString.substitution :=
  .one (.node (.seq_cons (.one .markHere) (.seq_cons (.one expressions_sound) (.seq_cons .sign .seq_nil))))

theorem templateString_sound : ReadsOne file pre .free templateString :=
  .node (.seq_cons .sign (.seq_cons (.starAny (.choice_cons templateText_sound
      (.choice_cons templateString_escape_sound
        (.choice_cons templateString_substitution_sound .choice_nil))))
    (.seq_cons (.one .markHere) .seq_nil)))

/-! ### Functions -/

/-- A sound arrow function. -/
structure SoundArrow (file : List Char) (k : Nat) (p : Piece file) (k' : Nat) : Prop where
  sound : Sound file false k [p] k'
  kind : p.kind = .arrowFunction
  row : Node.Row p.node.start p.node.children p.node.stop

theorem functionExpression_head_sound : ReadsAll file pre .free (seq [opt (kw "async"), kw "function"]) :=
  .seq_cons (.opt .kw) (.seq_cons .kw .seq_nil)

theorem functionExpression_rest_sound : ReadsAll file .free .free
    (seq [opt (part .name identifier), signature false, part .body block]) :=
  .seq_cons (.opt (.part .identifier)) (.seq_cons signature_sound (.seq_cons (.part .block) .seq_nil))

theorem functionExpression_sound : ReadsOne file pre .free functionExpression :=
  .gathered fun _ => .gather functionExpression_head_sound fun _ => .gather (.opt .sign) fun _ =>
    .gather functionExpression_rest_sound fun _ => .close (by split <;> rfl) (by split <;> rfl) fun _ => rfl

theorem arrowBody_sound : ReadsAll file pre .any (arrowBody placement) :=
  .seq_cons .sign (.seq_cons (.part (.choice_cons .block (.choice_cons .expression .choice_nil))) .seq_nil)

theorem bareArrow_sound : Reads .free .any (SoundArrow file) (bareArrow placement) :=
  .imp (.nodeOf (.seq_cons (.part .freeName) (.seq_cons arrowBody_sound .seq_nil)))
    fun _ _ _ _ hp => ⟨hp.1, hp.2.1, hp.2.2⟩

theorem parenthesizedArrow_result_sound {plain : Bool} :
    ReadsAll file .free .any (if plain then pure [] else opt (returnType false)) := by
  split
  · exact .forget .nil
  · exact .opt returnType_sound

theorem parenthesizedArrow_sound : Reads pre .any (SoundArrow file) (parenthesizedArrow placement) :=
  .peek .dialect fun _ => .imp (.nodeOf (.seq_cons optTypeParameters_sound
    (.seq_cons (.part formalParameters_sound) (.seq_cons parenthesizedArrow_result_sound
      (.seq_cons arrowBody_sound .seq_nil)))))
    fun _ _ _ _ hp => ⟨hp.1, hp.2.1, hp.2.2⟩

theorem asyncArrow_arrow_sound :
    Reads .free .any (SoundArrow file) (choice [bareArrow placement, parenthesizedArrow placement]) :=
  .choice_cons bareArrow_sound (.choice_cons parenthesizedArrow_sound .choice_nil)

theorem asyncArrow_sound : ReadsOne file pre .any (asyncArrow placement) :=
  .gathering fun _ _ => .gatherOne .keyword fun _ => .map asyncArrow_arrow_sound fun _ _ _ _ hp hbefore =>
    (hbefore.absorb hp.sound hp.row (by rw [hp.kind]; rfl) (by rw [hp.kind]; decide)).whole rfl rfl nofun

theorem methodRest_sound : ReadsAll file pre .free methodRest :=
  .seq_cons signature_sound (.seq_cons (.part .block) .seq_nil)

/-- A name that stands for a member of the same name. -/
theorem shorthandMember_goesOn : Reads .any .any (GoesOn file start [base]) (do
    when? (base.kind == .propertyIdentifier)
    return base.retag .shorthandPropertyIdentifier : Reader file (Piece file)) :=
  .whenThen fun hkind => .pure fun _ hk => ⟨hk, fun h => h.retag rfl fun _ => by
    rw [beq_iff_eq.1 hkind]
    decide⟩

theorem objectMember_method_sound {start : Nat} {offset : Offset file} {head : List (Piece file)}
    (hhead : head ≠ []) : Reads .any .any (GoesOn file start head) (objectMember.method offset head) :=
  .gather (.forget methodRest_sound) fun _ => .close rfl rfl fun hnone =>
    absurd (List.append_eq_nil_iff.1 hnone).1 hhead

theorem objectMember_value_sound : ReadsAll file .any .any (seq [sign ":", part .value enclosedValue]) :=
  .seq_cons .sign (.seq_cons (.part enclosedValue_sound) .seq_nil)

theorem objectMember_named_sound : ReadsOne file .free .any objectMember.named := by
  refine .gathered fun b => .gather (.star modifier_sound) fun modifiers =>
    .gather (.opt .sign) fun generator => .gatherOne propertyName_sound fun name => ?_
  split
  · rename_i hnone
    rw [Bool.and_eq_true, List.isEmpty_iff, List.isEmpty_iff] at hnone
    obtain ⟨rfl, rfl⟩ := hnone
    have named : Reads .any .any (GoesOn file b.pos [name])
        (objectMember.method b.offset [name.as .name]) :=
      .goesFrom (objectMember_method_sound (List.cons_ne_nil _ _)) fun _ h => h.as .name
    exact .choice_cons (.goesOn objectMember_value_sound)
      (.choice_cons named (.choice_cons shorthandMember_goesOn .choice_nil))
  · exact .goesFrom (objectMember_method_sound (List.append_ne_nil_of_right_ne_nil _
      (List.cons_ne_nil _ _))) fun _ h => h.asAmong .name

theorem objectMember_sound : ReadsAll file .free .any objectMember :=
  .choice_cons (.one spread_sound) (.choice_cons (.one objectMember_named_sound) .choice_nil)

theorem objectLiteral_sound : ReadsOne file pre .free objectLiteral :=
  .node (.seq_cons .sign (.seq_cons (sparseList_sound objectMember_sound) (.seq_cons .sign .seq_nil)))

theorem arrayLiteral_sound : ReadsOne file pre .free arrayLiteral :=
  .node (.seq_cons .sign (.seq_cons (sparseList_sound valueOrSpread_sound) (.seq_cons .sign .seq_nil)))

/-! ### Classes -/

theorem classHeritage_superclass_sound {pre : Level} : ReadsOne file pre .any classHeritage.extendsClause :=
  .node (.seq_cons .kw (.seq_cons (.sepBy1 .sign (.seq_cons (.part .expression)
    (.seq_cons (.opt (.part typeArguments_sound)) .seq_nil))) .seq_nil))

theorem classHeritage_interfaces_sound {pre : Level} :
    ReadsOne file pre .any classHeritage.implementsClause :=
  .node (.seq_cons .kw (.seq_cons (.sepBy1 .sign (.one enclosedType_sound)) .seq_nil))

theorem classHeritage_sound : ReadsOne file pre .any classHeritage := by
  refine .peek .dialect fun _ => ?_
  split
  · exact .choice_cons (.node (.seq_cons (.one classHeritage_superclass_sound)
        (.seq_cons (.opt (.one classHeritage_interfaces_sound)) .seq_nil)))
      (.choice_cons (.node (.seq_cons (.one classHeritage_interfaces_sound) .seq_nil)) .choice_nil)
  · exact .node (.seq_cons .kw (.seq_cons (.one .expression) .seq_nil))

/-- A method, behind decorators of its own. -/
theorem classMethod_goesOn {j k : Nat} {decorators before : List (Piece file)} {b : Progress file} {d : Dialect}
    {isAbstract : Bool} (hbefore : before ≠ []) (hdecorators : Sound file false j decorators k) :
    Reads .any .free (fun i ps i' => Sound file false k before i → Sound file false j ps i') (do
      let rest ← signature true
      alt [
        do
          let body ← part .body block
          let method := Piece.spanning .methodDefinition b.offset (before ++ rest ++ body)
          let ending ← opt (sign ";")
          return decorators ++ [method] ++ ending,
        do
          when? d.hasTypes
          let method := Piece.spanning
            (if isAbstract then .abstractMethodSignature else .methodSignature)
            b.offset (before ++ rest) (by split <;> decide)
          let ending ← alt [sign ",", statementEnd .signature]
          return decorators ++ [method] ++ ending]) := by
  have hmethod {kind : Kind} {hkind : kind.isPlain = true} (hordinary : kind.isOrdinary = true)
      (hcolon : (kind == .jsxNamespaceName) = false) {ps : List (Piece file)} (hne : ps ≠ []) (i : Nat)
      (h : Sound file false k ps i) :
      Sound file false j (decorators ++ [.spanning kind b.offset ps hkind]) i :=
    hdecorators.append (h.whole hordinary hcolon fun hnone => absurd hnone hne)
  have hhead (ps : List (Piece file)) : before ++ ps ≠ [] :=
    List.append_ne_nil_of_left_ne_nil hbefore ps
  have hend : ReadsAll file .any .free (alt [sign ",", statementEnd .signature]) :=
    .choice_cons .sign (.choice_cons .statementEnd .choice_nil)
  refine .gather signature_sound fun rest => .choice_cons ?_ (.choice_cons ?_ .choice_nil)
  · exact .gather (.part .block) fun _ => .goesFrom (.gather (.opt .sign) fun _ => .keep)
      (hmethod rfl rfl (List.append_ne_nil_of_left_ne_nil (hhead rest) _))
  · exact .peek (.when? _) fun _ => .goesFrom (.gather hend fun _ => .keep)
      (hmethod (by split <;> rfl) (by split <;> rfl) (hhead rest))

/-- A field, which its decorators belong to. -/
theorem classField_goesOn {j k : Nat} {decorators before : List (Piece file)} {b : Progress file} {d : Dialect}
    {condition : Bool} (hbefore : before ≠ []) (hdecorators : Sound file false j decorators k) :
    Reads .any .free (fun i ps i' => Sound file false k before i → Sound file false j ps i') (do
      when? condition
      let type ← ascription true
      let initial ← opt (defaultValue .value .final)
      let property := Piece.spanning .fieldDefinition b.offset
        (decorators ++ before ++ type ++ initial)
      let ending ← alt [
        statementEnd (if initial.isEmpty then .plain else .operand),
        do when? d.hasTypes; sign ","]
      return property :: ending) := by
  have hend (context : EndContext) : ReadsAll file .any .free
      (alt [statementEnd context, do when? d.hasTypes; sign ","]) :=
    .choice_cons .statementEnd (.choice_cons (.peek (.when? _) fun _ => .sign) .choice_nil)
  have hne (ps qs : List (Piece file)) : decorators ++ before ++ ps ++ qs ≠ [] := by
    simp [hbefore]
  refine .goesFrom ?_ fun _ h => hdecorators.append h
  exact .peek (.when? _) fun _ => .gather ascription_sound fun _ => .gather (.opt defaultValue_sound)
    fun _ => .goesFrom (.gather (hend _) fun _ => .keep) fun _ h =>
      h.whole rfl rfl fun hnone => absurd hnone (hne _ _)

theorem classMember_named_sound : ReadsAll file .free .free classMember.named := by
  refine .progress fun b _ => .peek .dialect fun d => .behind (.star (.part decorator_sound))
    fun j decorators k hdecorators => .imp (.gather (.star modifier_sound) fun modifiers =>
      .gather (.opt .sign) fun generator => .gatherPart .name propertyName_sound fun name => ?_)
    fun _ _ _ _ h hnone _ => h hnone
  have hmark : ReadsAll file .any .free (alt [sign "?", sign "!"]) :=
    .choice_cons .sign (.choice_cons .sign .choice_nil)
  have hhead (mark : List (Piece file)) : [] ++ modifiers ++ generator ++ [name.as .name] ++ mark ≠ [] := by
    simp
  dsimp only
  split
  · exact .gather (.opt hmark) fun mark => .choice_cons (classMethod_goesOn (hhead mark) hdecorators)
      (.choice_cons (classField_goesOn (hhead mark) hdecorators) .choice_nil)
  · exact .gather .nil fun mark => .choice_cons (classMethod_goesOn (hhead mark) hdecorators)
      (.choice_cons (classField_goesOn (hhead mark) hdecorators) .choice_nil)

theorem classMember_sound : ReadsAll file .free .free classMember :=
  .choice_cons .sign (.choice_cons (.one (.node (.seq_cons .kw (.seq_cons (.part .block) .seq_nil))))
    (.choice_cons (.peek .dialect fun _ => .peek (.when? _) fun _ => .seq_cons (.one indexSignature_sound)
      (.seq_cons memberEnd_sound .seq_nil)) (.choice_cons classMember_named_sound .choice_nil)))

theorem classBody_sound : ReadsOne file pre .free classBody :=
  .node (.seq_cons .sign (.seq_cons (.star classMember_sound) (.seq_cons .sign .seq_nil)))

theorem className_sound (hle : .loose ≤ pre := by decide) : ReadsOne file pre .free className :=
  .peek .dialect fun _ => .freeName (by split <;> rfl) hle

theorem classRest_sound : ReadsAll file pre .free classRest :=
  .seq_cons optTypeParameters_sound (.seq_cons (.opt (.one classHeritage_sound))
    (.seq_cons (.part classBody_sound) .seq_nil))

theorem classExpression_name_sound : ReadsAll file .free .free (do
    notAhead (keyword "implements")
    part .name className) :=
  .peek (.notAhead _) fun _ => .part className_sound

theorem classExpression_sound : ReadsOne file pre .free classExpression :=
  .node (.seq_cons (.star (.part decorator_sound)) (.seq_cons .kw (.seq_cons (.opt classExpression_name_sound)
    (.seq_cons classRest_sound .seq_nil))))

/-! ### Operands -/

/-- A keyword with a word behind a dot. -/
theorem metaProperty_sound {object property : String} :
    ReadsOne file pre .free (node .metaProperty [kw object, sign ".", kw property]) :=
  .node (.seq_cons .kw (.seq_cons (.one .dot) (.seq_cons .kw .seq_nil)))

theorem unlessFinished_peeks : Peeks (unlessFinished placement : Reader file Unit) := by
  unfold unlessFinished
  split
  · exact .bind (.endInsertable _) fun _ => .when? _
  · exact .pure ()

theorem assigned_operator_sound : ReadsOne file .any .free (choice (augmentedOperators.map mark)) := by
  refine .choice_of fun r hr => ?_
  obtain ⟨text, htext, rfl⟩ := List.mem_map.1 hr
  have hfrees : ∀ text ∈ augmentedOperators, freesBehind text.toList.reverse = true := by decide
  exact .mark (hfrees text htext)

theorem assigned_augmented_sound : ReadsAll file .any .any (seq [
    part .operator (choice (augmentedOperators.map mark)),
    part .right (enter (.expression 1 placement))]) :=
  .seq_cons (.part assigned_operator_sound) (.seq_cons (.part .expression) .seq_nil)

theorem assigned_goesOn : Reads .any .any (GoesOn file start [base]) (assigned placement base) := by
  unfold assigned
  split
  · exact .choice_cons (.goesOn defaultValue_sound) (.choice_cons (.goesOn assigned_augmented_sound)
      (.choice_cons .stay .choice_nil))
  · exact .stay

theorem optionalChain_sound : ReadsOne file pre .free optionalChain :=
  .lexeme (leaves_mark _ (freesBehind_text rfl rfl))

theorem instantiation_values_sound : ReadsOne file .free .free (choice [arguments, templateString]) :=
  .choice_cons arguments_sound (.choice_cons templateString_sound .choice_nil)

theorem instantiation_goesOn : Reads .any .any (GoesOn file start [base]) (instantiation base) :=
  .peek .dialect fun _ => .peek (.when? _) fun _ => .gather (.part typeArguments_sound) fun _ =>
    .choice_cons (.goesFrom (.gather (.part instantiation_values_sound) fun _ => .finish)
        fun _ h => h.asFirst .function)
      (.choice_cons (.peek .peekChar fun _ => .peek (.endInsertable _) fun _ => .peek (.when? _) fun _ =>
        .finish) .choice_nil)

theorem suffixed_index_sound {pre : Level} :
    ReadsAll file pre .free (seq [sign "[", part .index (expressions .enclosed), sign "]"]) :=
  .seq_cons .sign (.seq_cons (.part expressions_sound) (.seq_cons .sign .seq_nil))

theorem suffixed_goesOn (hstart : Level.free.At file start) :
    Reads .any .any (GoesOn file start [base]) (suffixed placement base) := by
  refine .peek .peekChar fun c => ?_
  split
  · exact .forget (.goesOnMember hstart (.memberTail (.one .dot) memberName_sound))
  · exact .peek (.when? _) fun _ => .gather (.part optionalChain_sound) fun _ =>
      .choice_cons (.goesFrom (.closeMember hstart (.memberPart memberName_sound))
          fun _ h => h.asFirst .object)
        (.choice_cons (.goesFrom (.gather suffixed_index_sound fun _ => .finish)
            fun _ h => h.asFirst .object)
          (.choice_cons (.goesFrom (called_goesOn _ arguments_sound nofun)
            fun _ h => h.asFirst .function) .choice_nil))
  · exact .peek (.when? _) fun _ => .forget (.goesOn suffixed_index_sound)
  · exact .forget (.goesOn (.part arguments_sound))
  · exact .peek (.when? _) fun _ => .forget (.goesOn (.part templateString_sound))
  · exact .peek .dialect fun _ => .peek (.when? _) fun _ => .peek unlessFinished_peeks fun _ =>
      .forget (.goesOn (g := fun p => p) (.one .markUnless))
  · exact instantiation_goesOn
  · exact .refuse

/-- A step behind what it changes. -/
theorem updated_goesOn : Reads .any .any (GoesOn file start [base]) (do
    let tail ← part .operator (choice [mark "++", mark "--"])
    return Piece.spanning .updateExpression base.start (base.as .argument :: tail)) :=
  .forget (.goesOn (.part (.choice_cons .mark (.choice_cons .mark .choice_nil))))

theorem chained_goesOn (hstart : Level.free.At file start) :
    Reads .any .any (GoesOn file start [base]) (chained placement base) :=
  .extendThen (fun _ => suffixed_goesOn hstart) (fun _ => .choice_cons
    (.peek unlessFinished_peeks fun _ => updated_goesOn)
    (.choice_cons (.peek (.when? _) fun _ => assigned_goesOn) .choice_nil)) base

theorem constructed_member_sound {start : Nat} (hstart : Level.free.At file start) (base : Piece file) :
    Reads .any .any (GoesOn file start [base]) (constructed.member placement base) := by
  refine .peek .peekChar fun c => ?_
  split
  · exact .refuse
  · exact .refuse
  · exact suffixed_goesOn hstart

theorem constructed_sound : ReadsOne file .free .any (constructed placement) :=
  .extended .expression fun _ hstart base => constructed_member_sound hstart base

theorem newExpression_sound : ReadsOne file pre .any (newExpression placement) :=
  .choice_cons (.forget metaProperty_sound)
    (.choice_cons (.node (.seq_cons .kw (.seq_cons (.part constructed_sound)
      (.seq_cons (.optTyped (.part typeArguments_sound))
        (.seq_cons (.opt (.part arguments_sound)) .seq_nil))))) .choice_nil)

theorem bracketed_sound {literal : Reader file (Piece file)} (h : ReadsOne file .free .free literal) :
    ReadsOne file .free .any (bracketed placement literal) :=
  .choice_cons (.checked h fun _ => .notAhead _) (.choice_cons (.gathering fun _ _ =>
    .gatherOne destructuring_sound fun _ => .goesOn defaultValue_sound) .choice_nil)

theorem parenthesized_sound : ReadsOne file pre .free parenthesized :=
  .peek .dialect fun _ => .choice_cons
    (.node (.seq_cons .sign (.seq_cons (.one expressions_sound) (.seq_cons .sign .seq_nil))))
    (.choice_cons (.peek (.when? _) fun _ => .node (.seq_cons .sign (.seq_cons (.one enclosedValue_sound)
      (.seq_cons (.part typeAscription_sound) (.seq_cons .sign .seq_nil))))) .choice_nil)

theorem afterArrow_goesOn (hstart : Level.free.At file start) :
    Reads .any .any (GoesOn file start [base]) (afterArrow placement base) := by
  unfold afterArrow
  split
  · exact chained_goesOn hstart
  · exact .stay

/-- The keyword in front of what is imported on demand. -/
theorem importCallee_sound : ReadsOne file .free .free (do
    let base ← leafWord .importKeyword "import"
    match ← peekChar with
    | some '(' | some '.' => return base
    | _ => refuse) := by
  refine .gathering fun _ _ => .gatherOne .word fun _ => .peek .peekChar fun c => ?_
  split
  · exact .stay
  · exact .stay
  · exact .refuse

theorem wordOperand_plainName_sound : ReadsOne file .free .any (wordOperand.plainName placement) :=
  .choice_cons (.imp bareArrow_sound fun _ _ _ _ h => h.sound) (.choice_cons .identifierValue .choice_nil)

theorem wordOperand_function_sound :
    ReadsOne file .free .any (choice [functionExpression, asyncArrow placement]) :=
  .choice_cons functionExpression_sound (.choice_cons asyncArrow_sound .choice_nil)

theorem wordOperand_asynchronous_sound : ReadsOne file .free .any (do
    if placement.ends then ahead (do let _ ← keyword "async"; unlessFinished placement)
    choice [functionExpression, asyncArrow placement]) := by
  dsimp only
  split
  · exact .peek (.ahead _) fun _ => wordOperand_function_sound
  · exact wordOperand_function_sound

theorem wordOperand_sound {word : String} : ReadsOne file .free .any (wordOperand placement word) := by
  unfold wordOperand
  split
  · exact .choice_cons wordOperand_asynchronous_sound (.choice_cons wordOperand_plainName_sound .choice_nil)
  · exact .forget functionExpression_sound
  · exact .forget classExpression_sound
  · exact newExpression_sound
  · exact .forget .word
  · exact .forget .word
  · exact .forget .word
  · exact .forget .word
  · exact .forget .word
  · exact .choice_cons (.forget metaProperty_sound) (.choice_cons (.forget importCallee_sound) .choice_nil)
  · exact wordOperand_plainName_sound

theorem bareOperand_arrow_sound : ReadsOne file .free .any (parenthesizedArrow placement) :=
  .imp parenthesizedArrow_sound fun _ _ _ _ h => h.sound

theorem bareOperand_sound : ReadsOne file .free .any (bareOperand placement) := by
  refine .peek .peekChar fun c => ?_
  split
  · exact .choice_cons bareOperand_arrow_sound (.choice_cons parenthesized_sound .choice_nil)
  · exact bracketed_sound arrayLiteral_sound
  · exact bracketed_sound objectLiteral_sound
  · exact .forget templateString_sound
  · exact .forget .string
  · exact .forget .string
  · exact .regex
  · exact .forget classExpression_sound
  · exact .checked (.lexeme (leaves_any _)) fun _ => .ahead _
  · exact .peek .dialect fun _ => .choice_cons (.peek (.when? _) fun _ => bareOperand_arrow_sound)
      (.choice_cons (.peek (.when? _) fun _ => .markup) .choice_nil)
  · split
    · exact .number
    · refine .peek (.peekLexeme _) fun w => ?_
      split
      · exact wordOperand_sound
      · exact .refuse
  · exact .refuse

theorem prefixed_sound {kind : Kind} {hkind : kind.isPlain = true} {operator : Reader file (Piece file)}
    (h : ReadsOne file pre .free operator) (hordinary : kind.isOrdinary = true := by decide)
    (hcolon : (kind == .jsxNamespaceName) = false := by decide) :
    ReadsOne file pre .any (prefixed placement kind operator hkind) :=
  .node (hcolon ▸ .seq_cons (.part h) (.seq_cons (.part .expression) .seq_nil)) hordinary

theorem yieldExpression_sound : ReadsOne file pre .any (yieldExpression placement) :=
  .node (.seq_cons .kw (.seq_cons (.choice_cons
    (.seq_cons .sign (.seq_cons (.one .expression) .seq_nil))
    (.choice_cons (.peek unlessFinished_peeks fun _ => .one .expression)
      (.choice_cons (.forget .nil) .choice_nil))) .seq_nil))

theorem operand_sound : ReadsOne file .free .any (operand placement) := by
  have hwhole : ReadsOne file .free .any (do
      let base ← bareOperand placement
      if base.kind == .arrowFunction then afterArrow placement base
      else if base.kind == .assignmentExpression then pure base
      else chained placement base) := by
    refine .gathering fun _ hstart => .gatherOne bareOperand_sound fun base => ?_
    split
    · exact afterArrow_goesOn hstart
    · split
      · exact .stay
      · exact chained_goesOn hstart
  have hstep : ReadsOne file .free .free (choice [mark "++", mark "--"]) :=
    .choice_cons .mark (.choice_cons .mark .choice_nil)
  have hsign : ReadsOne file .free .free
      (choice [mark "!", mark "~", markUnless "-" "-=", markUnless "+" "+="]) :=
    .choice_cons .mark (.choice_cons .mark (.choice_cons .markUnless (.choice_cons .markUnless .choice_nil)))
  have hmarked : ReadsOne file .free .any (choice [
      prefixed placement .updateExpression (choice [mark "++", mark "--"]),
      prefixed placement .unaryExpression
        (choice [mark "!", mark "~", markUnless "-" "-=", markUnless "+" "+="])]) :=
    .choice_cons (prefixed_sound hstep) (.choice_cons (prefixed_sound hsign) .choice_nil)
  refine .peek .peekChar fun c => ?_
  split
  · exact hmarked
  · exact hmarked
  · exact hmarked
  · exact hmarked
  · exact .choice_cons hwhole (.choice_cons (.peek .dialect fun _ => .peek (.when? _) fun _ =>
      .node (.seq_cons (.one typeArguments_sound) (.seq_cons (.one .expression) .seq_nil))) .choice_nil)
  · refine .peek (.peekLexeme _) fun w => ?_
    split
    · exact prefixed_sound .keyword
    · exact prefixed_sound .keyword
    · exact prefixed_sound .keyword
    · exact .choice_cons (.node (.seq_cons .kw (.seq_cons (.one .expression) .seq_nil)))
        (.choice_cons hwhole .choice_nil)
    · exact yieldExpression_sound
    · exact hwhole

/-! ### Operators -/

theorem freesBehind_binaryMarks :
    ∀ o ∈ binaryMarks, freesBehind o.text.toList.reverse = true := by
  decide

theorem leaves_question (d : Dialect) : Leaves .free (questionLength? d) := by
  intro cs n hn
  have htake : cs.take n = ['?'] := by
    unfold questionLength? at hn
    split at hn
    · have hone : n = 1 := by
        split at hn
        · cases hn
        · exact (Option.some.inj (Option.ite_none_right_eq_some.1 hn).2).symm
        · split at hn
          · split at hn
            · cases hn
            · cases hn
            · cases hn
            · exact (Option.some.inj hn).symm
          · exact (Option.some.inj hn).symm
      rw [hone]
      rfl
    · cases hn
  rw [htake]
  exact .inr fun front => free_concat (not_isIdentifierPart_of_punctuation rfl) (by decide) front

/-- An operator with the operand behind it. -/
theorem binary_goesOn {next : Nat} {r : Reader file (Piece file)} (h : ReadsOne file .any .free r) :
    Reads .any .any (GoesOn file start [base]) (do
      let operator ← r
      let right ← enter (.expression next placement)
      return Piece.spanning .binaryExpression base.start
        [base.as .left, operator.as .operator, right.as .right]) :=
  .goesFrom (.gatherAs .operator h fun _ => .gatherAs .right .expression fun _ =>
    .finish) fun _ h => h.asFirst .left

theorem operated_typed_sound {start : Nat} {base : Piece file} :
    Reads .any .any (GoesOn file start [base]) (operated.typed level placement base) :=
  .peek .dialect fun _ => .peek (.when? _) fun _ => .peek unlessFinished_peeks fun _ =>
    .choice_cons (.goesOn (g := fun p => p) (.seq_cons .kw (.seq_cons (.one (.choice_cons .keyword
        (.choice_cons .type .choice_nil))) .seq_nil)))
      (.choice_cons (.goesOn (g := fun p => p) (.seq_cons .kw (.seq_cons (.one .type) .seq_nil)))
        .choice_nil)

theorem operated_branches_sound {plainArrows : Bool} :
    ReadsAll file .free .any (operated.branches placement plainArrows) :=
  .seq_cons (.part .expression) (.seq_cons .sign (.seq_cons (.part .expression) .seq_nil))

theorem operated_conditional_sound {start : Nat} {base : Piece file} :
    Reads .any .any (GoesOn file start [base]) (operated.conditional level placement base) :=
  .peek (.when? _) fun _ => .peek .dialect fun d => .goesFrom
    (.gatherOne (.lexeme (leaves_question d)) fun _ => .gather (.choice_cons operated_branches_sound
      (.choice_cons (.peek (.when? _) fun _ => operated_branches_sound) .choice_nil)) fun _ =>
      .finish) fun _ h => h.asFirst .condition

theorem operated_goesOn {level : Nat} : Reads .any .any (GoesOn file start [base])
    (operated level placement base) := by
  unfold operated
  refine .peek .peekChar fun next => ?_
  dsimp only
  split
  · exact .refuse
  · split
    · refine .choice_of fun r hr => ?_
      rcases List.mem_append.1 hr with hword | htyped
      · obtain ⟨w, -, rfl⟩ := List.mem_map.1 hword
        exact .peek (.when? _) fun _ => binary_goesOn .keyword
      · exact List.mem_singleton.1 htyped ▸ operated_typed_sound
    · refine .choice_of fun r hr => ?_
      rcases List.mem_append.1 hr with hmark | hconditional
      · obtain ⟨o, ho, rfl⟩ := List.mem_map.1 hmark
        exact .peek (.when? _) fun _ =>
          binary_goesOn (.markUnless (freesBehind_binaryMarks o (List.mem_filter.1 ho).1))
      · exact List.mem_singleton.1 hconditional ▸ operated_conditional_sound

theorem expression_sound {level : Nat} : ReadsOne file .free .any (expression level placement) := by
  unfold expression
  split
  · exact bareOperand_sound
  · refine .gathering fun _ _ => .gatherOne operand_sound fun _ => ?_
    split
    · exact .stay
    · exact .extendOn (fun _ => operated_goesOn) _

end WebMigration.Syntax.Grammar
