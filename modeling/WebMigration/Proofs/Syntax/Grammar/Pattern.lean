import WebMigration.Proofs.Syntax.Reader

/-!
# Sound patterns

The names of properties and the patterns that declarations and assignments take apart.
-/

namespace WebMigration.Syntax.Grammar

open Reader Fragment

variable {file : List Char} {start : Nat} {base : Piece file} {pre post : Level}

theorem enclosedValue_sound : ReadsOne file .free .any enclosedValue := .expression

theorem sparseList_sound {item : Fragment file} (h : ReadsAll file .free .any item) :
    ReadsAll file .free .any (sparseList item) :=
  .seq_cons h.opt (.seq_cons (.star (.seq_cons .sign (.seq_cons h.opt .seq_nil))) .seq_nil)

theorem commaList_sound {item : Fragment file} (h : ReadsAll file .free .any item) :
    ReadsAll file .free .any (commaList item) :=
  .seq_cons (.sepBy1 .sign h) (.seq_cons (.opt .sign) .seq_nil)

theorem privateName_leaves : Leaves .free privateNameLength? :=
  Shuts.leaves (fun _ _ => shut_privateName) .free

theorem computedName_sound :
    ReadsOne file pre .free (node .computedPropertyName [sign "[", one enclosedValue, sign "]"]) :=
  .node (.seq_cons .sign (.seq_cons (.one enclosedValue_sound) (.seq_cons .sign .seq_nil)))

theorem propertyName_sound : ReadsOne file pre .any propertyName :=
  .choice_cons .anyWord (.choice_cons (.lexeme privateName_leaves) (.choice_cons .string
    (.choice_cons .number (.choice_cons computedName_sound .choice_nil))))

theorem defaultValue_sound {field : Field} {placement : Placement} :
    ReadsAll file pre .any (defaultValue field placement) :=
  .seq_cons .equals (.seq_cons (.part .expression) .seq_nil)

theorem patternOrDefault_sound : ReadsOne file .free .any patternOrDefault :=
  .followed .pattern (.opt defaultValue_sound)

/-- The pattern that takes what is left over. -/
theorem restPattern_sound :
    ReadsOne file pre .free (node .restPattern [sign "...", one (enter .pattern)]) :=
  .node (.seq_cons .sign (.seq_cons (.one .pattern) .seq_nil))

theorem destructuring_property_sound : ReadsAll file .free .any destructuring.property :=
  .choice_cons (.one restPattern_sound)
    (.choice_cons (.one (.node (.seq_cons (.part propertyName_sound) (.seq_cons .sign
      (.seq_cons (.part patternOrDefault_sound) .seq_nil)))))
    (.choice_cons (.one (.node (.seq_cons (.part .freeWord) (.seq_cons defaultValue_sound .seq_nil))))
    (.choice_cons (.one .freeWord) .choice_nil)))

theorem destructuring_sound : ReadsOne file pre .free destructuring :=
  .choice_cons (.node (.seq_cons .sign
      (.seq_cons (sparseList_sound destructuring_property_sound) (.seq_cons .sign .seq_nil))))
    (.choice_cons (.node (.seq_cons .sign
      (.seq_cons (sparseList_sound (.one patternOrDefault_sound)) (.seq_cons .sign .seq_nil)))) .choice_nil)

/-- The name of a member. -/
theorem memberName_sound : Reads pre .free
    (fun k p k' => Sound file false k [p] k' ∧ ShutAt file p.node.stop)
    (choice [anyWord .propertyIdentifier, lexeme .privatePropertyIdentifier privateNameLength?]) :=
  .choice_cons (.shutLeaf fun _ _ => shut_word) (.choice_cons (.shutLeaf fun _ _ => shut_privateName)
    .choice_nil)

theorem accessChain_sound : ReadsOne file .free .free accessChain :=
  .extended (.choice_cons .word (.choice_cons .word (.choice_cons .identifierValue .choice_nil)))
    fun _ hstart _ => .choice_cons (.goesOnMember hstart (.memberTail (.one .dot) memberName_sound))
      (.choice_cons (.goesOn (.seq_cons .sign (.seq_cons (.part enclosedValue_sound)
        (.seq_cons .sign .seq_nil)))) .choice_nil)

theorem pattern_sound : ReadsOne file .free .free pattern :=
  .choice_cons restPattern_sound
    (.choice_cons destructuring_sound (.choice_cons accessChain_sound .choice_nil))

theorem bindingTarget_sound : ReadsOne file .free .free bindingTarget :=
  .choice_cons .identifier (.choice_cons destructuring_sound .choice_nil)

end WebMigration.Syntax.Grammar
