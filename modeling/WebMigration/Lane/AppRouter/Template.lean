import WebMigration.Text.Basic

/-!
# Files that the app router needs

The contents of the files that a migrated site needs beyond its own: layouts, error pages, loading
states, a style sheet and the configuration of the style tool.
-/

namespace WebMigration.Lane.AppRouter

/-- Lines as the text of a file. -/
def page (lines : List String) : String := String.join (lines.map (· ++ "\n"))

/-- What the semantic pass is told about the target. -/
def guidance : String :=
  page
    ["",
     "NEXT.JS APP ROUTER NOTES:",
     "- Components using hooks, state or browser APIs need a 'use client' directive",
     "- Navigation uses Link from 'next/link' and useRouter from 'next/navigation'",
     "- Class component lifecycle methods become useEffect hooks"]

def rootLayout : String :=
  page
    ["import type \x7b Metadata \x7d from 'next'",
     "import './globals.css'",
     "",
     "export const metadata: Metadata = \x7b",
     "  title: 'My App',",
     "  description: 'Migrated to Next.js App Router',",
     "\x7d",
     "",
     "export default function RootLayout(\x7b",
     "  children,",
     "\x7d: \x7b",
     "  children: React.ReactNode",
     "\x7d) \x7b",
     "  return (",
     "    <html lang=\"en\">",
     "      <body>\x7bchildren\x7d</body>",
     "    </html>",
     "  )",
     "\x7d"]

def segmentLayout : String :=
  page
    ["export default function Layout(\x7b",
     "  children,",
     "\x7d: \x7b",
     "  children: React.ReactNode",
     "\x7d) \x7b",
     "  return <section>\x7bchildren\x7d</section>",
     "\x7d"]

def errorPage : String :=
  page
    ["'use client'",
     "",
     "export default function Error(\x7b",
     "  error,",
     "  reset,",
     "\x7d: \x7b",
     "  error: Error & \x7b digest?: string \x7d",
     "  reset: () => void",
     "\x7d) \x7b",
     "  return (",
     "    <div>",
     "      <h2>Something went wrong!</h2>",
     "      <button onClick=\x7b() => reset()\x7d>Try again</button>",
     "    </div>",
     "  )",
     "\x7d"]

def loadingPage : String :=
  page
    ["export default function Loading() \x7b",
     "  return <div>Loading...</div>",
     "\x7d"]

def notFoundPage : String :=
  page
    ["import Link from 'next/link'",
     "",
     "export default function NotFound() \x7b",
     "  return (",
     "    <div>",
     "      <h2>Not Found</h2>",
     "      <Link href=\"/\">Return Home</Link>",
     "    </div>",
     "  )",
     "\x7d"]

def emptyPage : String :=
  page
    ["export default function Page() \x7b",
     "  return <div />",
     "\x7d"]

/-- The directives that a style sheet of the target starts with. -/
def styleDirectives : String :=
  page
    ["@tailwind base;",
     "@tailwind components;",
     "@tailwind utilities;"]

/-- The pattern for the script files below a directory. -/
def scriptsBelow (directory : String) : String :=
  "\"./" ++ directory ++ "/**/*.\x7bjs,ts,jsx,tsx,mdx\x7d\""

/-- The configuration of the style tool for the files that some patterns name. -/
def styleToolConfig (globs : List String) : String :=
  page
    ["import type \x7b Config \x7d from 'tailwindcss'",
     "",
     "const config: Config = \x7b",
     "  content: ["] ++
  "    " ++ Text.join ",\n    " globs ++ ",\n" ++
  page
    ["  ],",
     "  theme: \x7b",
     "    extend: \x7b\x7d,",
     "  \x7d,",
     "  plugins: [],",
     "\x7d",
     "",
     "export default config"]

end WebMigration.Lane.AppRouter
