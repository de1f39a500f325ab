import WebMigration.Json.Access
import WebMigration.Spec.Basic

/-!
# Framework profiles

Static facts about frameworks.  As the source of a migration a profile says what must disappear; as
its target, what may be imported and how directories are abbreviated.
-/

namespace WebMigration

/-- What is known about a framework. -/
structure FrameworkProfile where
  name : String
  aliases : List String := []
  /-- Starts of module names that must not survive a migration away from the framework. -/
  legacyPackages : List String := []
  /-- Markup elements of its routing layer. -/
  legacyComponents : List String := []
  /-- Patterns of text that show a use of the framework. -/
  referencePatterns : List String := []
  /-- Starts of module names that the framework accepts; none accept all. -/
  validImports : List String := []
  /-- Directories and what imports from them start with. -/
  pathAliases : Table String := []
  deriving Repr, DecidableEq

namespace FrameworkProfile

/-- The name under which a framework is looked up. -/
def key (p : FrameworkProfile) : String := Text.normalizedKey p.name

def toJson (p : FrameworkProfile) : Json :=
  .record [("name", .string p.name), ("aliases", .strings p.aliases),
    ("legacy_packages", .strings p.legacyPackages),
    ("legacy_components", .strings p.legacyComponents),
    ("reference_patterns", .strings p.referencePatterns),
    ("valid_import_prefixes", .strings p.validImports), ("path_aliases", p.pathAliases.ofStrings)]

def ofJson (v : Json) : FrameworkProfile :=
  { name := v.text "name", aliases := v.texts "aliases", legacyPackages := v.texts "legacy_packages",
    legacyComponents := v.texts "legacy_components",
    referencePatterns := v.texts "reference_patterns",
    validImports := v.texts "valid_import_prefixes", pathAliases := v.textFields "path_aliases" }

/-- The profile of a framework about which nothing is known. -/
def unknown : FrameworkProfile := { name := "unknown" }

def react : FrameworkProfile where
  name := "React"
  aliases := ["reactjs", "cra", "create-react-app"]
  legacyPackages := ["react-router", "@reach/router", "react-helmet"]
  legacyComponents := ["Route", "Routes", "BrowserRouter", "Navigate"]
  referencePatterns :=
    ["react-router", "\\bRoute\\b", "\\bSwitch\\b", "\\bBrowserRouter\\b", "useNavigate\\("]

def vue : FrameworkProfile where
  name := "Vue"
  aliases := ["vuejs", "vue2", "vue3"]
  legacyPackages := ["vue-router", "vuex"]
  referencePatterns := ["vue-router", "\\bVuex\\b", "\\$router", "\\$route"]

def angular : FrameworkProfile where
  name := "Angular"
  aliases := ["angularjs"]
  legacyPackages := ["@angular/router", "@angular/common"]

def flask : FrameworkProfile where
  name := "Flask"
  legacyPackages := ["flask"]
  referencePatterns := ["from flask import", "@app\\.route"]

def django : FrameworkProfile where
  name := "Django"
  legacyPackages := ["django"]

def nextJs : FrameworkProfile where
  name := "Next.js"
  aliases := ["next", "nextjs-app", "nextjs-app-router"]
  validImports := ["next/", "react", "@vercel/"]
  pathAliases :=
    [("components", "@components"), ("lib", "@lib"), ("hooks", "@hooks"), ("context", "@context"),
      ("app", "@app"), ("types", "@types"), ("utils", "@utils"), ("services", "@services")]

def nuxt : FrameworkProfile where
  name := "Nuxt"
  aliases := ["nuxtjs", "nuxt3"]
  validImports := ["nuxt/", "vue", "@nuxt/"]

def fastApi : FrameworkProfile where
  name := "FastAPI"
  validImports := ["fastapi", "pydantic", "starlette"]

def nestJs : FrameworkProfile where
  name := "NestJS"
  aliases := ["nest"]
  validImports := ["@nestjs/", "express"]

/-- The profiles that are known from the start. -/
def builtIn : List FrameworkProfile :=
  [react, vue, angular, flask, django, nextJs, nuxt, fastApi, nestJs]

end FrameworkProfile

end WebMigration
