import WebMigration.Command.Run
import WebMigration.Proofs.Command.Reading
import WebMigration.Proofs.Engine.Closed

/-!
# What comes before the writing

Reading the settings, the specification and the source tree and transforming the files leaves the
disk alone, and nothing is kept in mind as new.
-/

namespace WebMigration.Command

open Disk (Address)
open Run (Keeps keeps_closed)

variable {w : Surroundings}

/-- The models of some surroundings work neither on the disk nor on the files kept in mind. -/
def Surroundings.Harmless (w : Surroundings) : Prop :=
  ∀ service settings text, Keeps Session.tree _ (w.model service settings text)

theorem tree_closed : (Keeps Session.tree).Closed := keeps_closed Session.tree

theorem loadSettings_keeps (w : Surroundings) (o : Options) :
    Keeps Session.tree _ (loadSettings w o) := by
  unfold loadSettings
  split
  · exact tree_closed.ofExcept _
  · refine tree_closed.bind disk?_keeps fun d => ?_
    split
    · exact tree_closed.bind (tree_closed.ofExcept _) fun _ => tree_closed.ofExcept _
    · exact tree_closed.ofExcept _

theorem showFrom_keeps (level : String) : Keeps Session.tree _ (showFrom level) := by
  unfold showFrom
  split
  · exact fun _ => rfl
  · exact tree_closed.raise _

theorem loadSpec_keeps (address : Address) : Keeps Session.tree _ (loadSpec address) :=
  tree_closed.bind disk?_keeps fun _ =>
    tree_closed.bind (tree_closed.ofExcept _) fun _ => tree_closed.ofExcept _

theorem transformer_keeps (hw : w.Harmless) {settings : Settings}
    {t : Semantic.Transformer Session} (h : transformerOf w settings = .ok (some t)) :
    Keeps Session.tree _ t.isReady ∧
      ∀ code spec context, Keeps Session.tree _ (t.transform code spec context) := by
  unfold transformerOf at h
  rcases hservice : Semantic.chosenService settings.semantic with fault | _ | service <;>
    rw [hservice] at h
  · cases h
  · cases h
  · cases h
    refine ⟨tree_closed.pure _, fun code spec context => ?_⟩
    refine tree_closed.bind ?_ fun _ => tree_closed.pure _
    refine tree_closed.bind (tree_closed.attempt (hw _ _ _)) fun answer => ?_
    split
    · exact tree_closed.fail _
    · exact tree_closed.ofExcept _

theorem transformBatch_keeps (hw : w.Harmless) {settings : Settings}
    {semantic : Option (Semantic.Transformer Session)}
    (h : transformerOf w settings = .ok semantic) (files : List FileRecord) (spec : Specification)
    (jobId : Option String) :
    Keeps Session.tree _ ((engineOf w settings semantic).transformBatch files spec jobId) := by
  have hsemantic : ∀ t ∈ semantic, Keeps Session.tree _ t.isReady ∧
      ∀ code spec context, Keeps Session.tree _ (t.transform code spec context) := by
    rintro t ⟨⟩
    exact transformer_keeps hw h
  have hrecovery {α : Type} : (Recovery.Manager.standard (.ofSettings settings.recovery) :
      Recovery.Manager (Work Session) α).Given (Keeps (Session.tree ∘ Work.outside)) :=
    Recovery.Manager.standard_given (keeps_closed _) _
  have hled : (engineOf w settings semantic).LedBy (Keeps Session.tree) :=
    { plan := fun _ _ => tree_closed.pure _
      observer := by
        rintro observer ⟨⟩ report
        exact tell_keeps _ _
      sink := by
        rintro sink ⟨⟩ id message
        exact tree_closed.write _
      clock := tree_closed.pure _ }
  have hmade : (engineOf w settings semantic).MadeOf (Keeps Session.tree)
      (Keeps (Session.tree ∘ Work.outside)) :=
    { isReady := fun t ht => (hsemantic t ht).1
      transform := fun t ht => (hsemantic t ht).2
      semanticRecovery := hrecovery
      rewrite := fun _ _ _ => rfl
      judge := fun _ _ _ => tree_closed.pure _
      fetch := by
        rintro fetch ⟨⟩
      rewriteRecovery := hrecovery }
  exact Engine.transformBatch_closed (Engine.keeps_paired Session.tree) hled hmade files spec jobId

theorem transformFiles_keeps (hw : w.Harmless) {settings : Settings}
    {semantic : Option (Semantic.Transformer Session)}
    (h : transformerOf w settings = .ok semantic) (files : List FileRecord) (spec : Specification)
    (jobId : String) :
    Keeps Session.tree _ (transformFiles (engineOf w settings semantic) files spec jobId) := by
  refine tree_closed.bind (tell_keeps _ _) fun _ => ?_
  refine tree_closed.bind (tree_closed.attempt (transformBatch_keeps hw h files spec _))
    fun answer => ?_
  split
  · exact tree_closed.pure _
  · exact tree_closed.bind (tell_keeps _ _) fun _ => tree_closed.pure _
  · exact tree_closed.raise _

end WebMigration.Command
