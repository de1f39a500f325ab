import WebMigration.Lane.AppRouter.Rule
import WebMigration.Lane.AppRouter.Layout
import WebMigration.Lane.Registry

/-!
# The lane to the app router

Single-page sites with client-side routing become sites of the app router.  The registry that is used
unless another one is given holds this lane and all known profiles.
-/

namespace WebMigration

/-- The lane from React to the app router of Next.js. -/
def Lane.appRouter : Lane where
  id := "react_to_nextjs"
  displayName := "React (react-router) -> Next.js (app router)"
  sources := ["React", "cra", "create-react-app"]
  targets := ["Next.js", "nextjs-app", "next"]
  version := "1.0.0"
  applicability source target :=
    .ok (Lane.fitByName ["React", "cra", "create-react-app"] ["Next.js", "nextjs-app", "next"]
      source target)
  rules := Lane.AppRouter.rules
  plan := Lane.AppRouter.plan
  required := Lane.AppRouter.required
  scaffold := Lane.AppRouter.scaffold
  styleConfig := Lane.AppRouter.styleConfig
  augment prompt _ := prompt ++ Lane.AppRouter.guidance

/-- The lanes and profiles that are known from the start. -/
def LaneRegistry.builtIn : LaneRegistry :=
  (FrameworkProfile.builtIn.foldl LaneRegistry.registerProfile {}).register Lane.appRouter

end WebMigration
