import DesignMarkup.Command.Fetch

/-!
# `Command.Pages` — the pages of a file

## Contents

* `PagesArgs`, `pagesCommand`: the command, which also shows whether the service can be reached.
-/

namespace DesignMarkup

/-- The arguments of the command. -/
structure PagesArgs where
  fileKey : Option String
  deriving DecidableEq, Repr

/-- Prints the pages of a file. -/
def sayPages : List Lookup.PageEntry → Talking Unit
  | [] => return ()
  | p :: rest => do
    say ("   - " ++ p.name.text ++ " (" ++ p.id.text ++ ")")
    sayPages rest

/-- The file, or nothing after a refusal that was told of. -/
def tryFile (s : Service) : Talking (Option Json) :=
  tryCatch (some <$> ask (s.client.getFile s.fileKey)) fun e =>
    match e with
    | .api (.refused message status) => do
      say (refusedLine message status s.fileKey)
      return none
    | e => throw e

/-- Asks for a file and prints its pages. -/
def listFile (s : Service) : Talking Nat := do
  say ("🔑 Testing Figma API access: " ++ s.fileKey.text)
  match ← tryFile s with
  | none => return 1
  | some file => do
    say "   ✅ API key is valid and file is accessible"
    let pages ← orFail .ofLookup (Lookup.listPages file)
    if pages.isEmpty then say "   ⚠️  此 Figma 檔案沒有任何頁面。"
    sayPages pages
    return 0

/-- **The command** that lists pages. -/
def pagesCommand (a : PagesArgs) (c : Config) (env : Environment) : Command Nat := do
  match serviceOf c env a.fileKey [] with
  | .error lines => do
    talking (sayAll lines)
    return 1
  | .ok s => talking (listFile s)

end DesignMarkup
