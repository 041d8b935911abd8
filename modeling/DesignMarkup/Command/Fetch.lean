import DesignMarkup.Command.Convert
import DesignMarkup.Page.FileName

/-!
# `Command.Fetch` — a frame of a file as pages

The frame and its children are asked for and converted before anything is written, all in one shared
context, so that one stylesheet serves every page.

## Contents

* `Service`, `serviceOf`: what every asking command needs, and the lines about what is missing;
* `FetchArgs`, `FetchPlan`: the arguments, and what is to be written;
* `fetchFrame`, `convertChildren`, `planFetch`: the asking and converting;
* `writePlan`: the writing;
* `fetchCommand`: the command.
-/

namespace DesignMarkup

open Json (fieldOrNull)

/-! ## Talking to the service -/

/-- What an asking command needs: a client and the key of a file. -/
structure Service where
  client : Client
  fileKey : Json

/-- The line about a missing token. -/
def missingTokenLine : String :=
  "❌ 請設定 FIGMA_API_KEY 環境變數，或在 figma-bootstrap.config.json 的 figma.apiKey 設定。"

/-- The line about a missing file key. -/
def missingKeyLine : String :=
  "❌ 請使用 --file-key 或在 config 的 figma.fileKey 設定 Figma 檔案 key。"

/-- The service to talk to, or the lines about what is missing; `hint` follows a missing token. -/
def serviceOf (c : Config) (env : Environment) (fileKey : Option String) (hint : List String) :
    Except (List String) Service :=
  let token := c.token env
  let key := c.fileKey fileKey
  if !token.isTruthy then .error (missingTokenLine :: hint)
  else if !key.isTruthy then .error [missingKeyLine]
  else .ok ⟨{ token }, key⟩

/-- Prints lines. -/
def sayAll : List String → Talking Unit
  | [] => return ()
  | l :: rest => do
    say l
    sayAll rest

/-- The value is a number equal to a whole number. -/
def isNumber (v : Json) (n : Int) : Bool :=
  match v with
  | .number m => m.equals (.int n)
  | _ => false

/-- The line about a refused request. -/
def refusedLine (message : String) (status fileKey : Json) : String :=
  if isNumber status 403 then
    "❌ Figma API 403：API key 無效或已過期，或檔案未分享給此帳號。"
  else if isNumber status 404 then
    "❌ Figma API 404：找不到檔案 '" ++ fileKey.text ++ "'，請確認 file key 是否正確。"
  else "❌ Figma API 錯誤（" ++ status.text ++ "）：" ++ message

/-! ## Arguments and plan -/

/-- The arguments of the command. -/
structure FetchArgs where
  fileKey : Option String
  page : Argument
  frame : Argument
  output : Option String
  noChildren : Bool
  deriving DecidableEq, Repr

/-- The page of a child. -/
structure ChildPage where
  child : Layer
  result : Result
  options : Options
  fileName : String
  deriving DecidableEq

/-- What is to be written: the main page into a folder, the pages of the children and their link index
into another, and the stylesheet for all. -/
structure FetchPlan where
  frame : Argument
  outputFolder : String
  childFolder : String
  result : Result
  options : Options
  styles : StyleTable
  children : List ChildPage
  deriving DecidableEq

/-- The link to the page of a child. -/
def ChildPage.link (p : ChildPage) : Page.Link :=
  ⟨p.child.name, p.child.id, p.fileName⟩

/-! ## Asking and converting -/

/-- A conversion in a context, as a step that yields the context after it. -/
def convertIn (context : Context) (o : Options) (root : Node) : Talking (Result × Context) := do
  let (r, after) := (convert o (some root)).run context
  let result ← orFail .conversion r
  return (result, after)

/-- Finds a frame in a file and asks for its node. -/
def fetchFrame (s : Service) (a : FetchArgs) : Talking Node := do
  let file ← ask (s.client.getFile s.fileKey)
  let page ← orFail .ofLookup (Lookup.findPage file a.page)
  say ("   ✅ Found page: " ++ (Lookup.fieldOr page "id" (.string "")).text)
  let frame ← orFail .ofLookup (Lookup.findFrame page a.frame)
  let frameId := Lookup.fieldOr frame "id" (.string "")
  say ("   ✅ Found frame: " ++ frameId.text)
  let data ← ask (s.client.getNodes s.fileKey (.array [frameId]))
  orFail .data (nodeOf data)

/-- The node of a child in the response about all children, null if there is none. -/
def childData (nodes : List (String × Json)) (id : String) : Except LookupError Json := do
  let entry ← Lookup.fieldsOrNone (fieldOrNull nodes id)
  return fieldOrNull entry "document"

/-- Converts the children from the `i`-th on, of `total`. A child without node data is passed over;
each page gets a file name of its own. -/
def convertChildren (c : Config) (nodes : List (String × Json)) (total : Nat) :
    (i : Nat) → (used : List String) → Context → List Node → Talking (List ChildPage × Context)
  | _, _, context, [] => return ([], context)
  | i, used, context, child :: rest => do
    let l := child.layer
    let raw ← orFail .ofLookup (childData nodes l.id)
    if raw.isTruthy then
      say ("   [" ++ toString i ++ "/" ++ toString total ++ "] Processing child: " ++ l.name)
      let fileName := Page.unusedFileName l.name used
      let options := c.options { title := some l.name, isChild := some true }
      let root ← orFail .data (Node.read raw)
      let (result, context) ← convertIn context options root
      let (pages, context) ← convertChildren c nodes total (i + 1) (fileName :: used) context rest
      return (⟨l, result, options, fileName⟩ :: pages, context)
    else
      say ("   ⚠️  [" ++ toString i ++ "] No node data for child: " ++ l.name)
      convertChildren c nodes total (i + 1) used context rest

/-- The pages of the children, which are asked for in one request. -/
def fetchChildren (s : Service) (a : FetchArgs) (c : Config) (context : Context)
    (children : List Node) : Talking (List ChildPage × Context) := do
  if children.isEmpty then
    say ("   ⚠️  No children found in frame: " ++ a.frame.shown)
    return ([], context)
  else if a.noChildren then return ([], context)
  else
    say ("   Found " ++ toString children.length ++ " children, fetching detailed data...")
    let ids := children.map fun n => Json.string n.layer.id
    let detail ← ask (s.client.getNodes s.fileKey (.array ids))
    let fields ← orFail .ofLookup (Lookup.fieldsOf detail)
    let nodes ← orFail .ofLookup (Lookup.fieldsOrNone (fieldOrNull fields "nodes"))
    convertChildren c nodes children.length 1 [] context children

/-- **All that is asked and converted** before anything is written. -/
def planFetch (s : Service) (a : FetchArgs) (c : Config) : Talking FetchPlan := do
  let root ← fetchFrame s a
  let options := c.options { title := some a.frame.characters }
  let (result, context) ← convertIn .fresh options root
  let outputFolder ← orFail id (pathText (c.outputFolder a.output))
  let (children, context) ← fetchChildren s a c context root.children
  return {
    frame := a.frame
    outputFolder
    childFolder := joinText outputFolder (Page.slug a.frame.characters)
    result, options
    styles := context.styles
    children }

/-! ## Writing -/

/-- Writes the pages of the children and yields their paths. -/
def writeChildren (folder : String) (styles : StyleTable) : List ChildPage → Filing (List String)
  | [] => return []
  | p :: rest => do
    let written ← Page.writeConversion folder p.result styles p.options p.fileName
    let others ← writeChildren folder styles rest
    return written ++ others

/-- Writes the link index of the children, if there are any, and yields its path. -/
def writeIndex (p : FetchPlan) : Filing (List String) := do
  if p.children.isEmpty then return []
  else
    let path := joinText p.childFolder "index.html"
    writeFile (Path.read path)
      (Page.linkIndex p.frame (p.children.map ChildPage.link) p.options.bootstrapVersion)
    return [path]

/-- **Writes a plan**: the pages of the children, their link index, and the main page last. The paths of
the main page come first. -/
def writePlan (p : FetchPlan) : Filing (List String) := do
  let children ← writeChildren p.childFolder p.styles p.children
  let index ← writeIndex p
  let main ← Page.writeConversion p.outputFolder p.result p.styles p.options "index.html"
  return main ++ children ++ index

/-! ## The command -/

/-- What remains to be done after a failed request or faulty data: a line tells of it, and there is no
plan. -/
def fetchFailed (fileKey : Json) : Failure → Talking (Option FetchPlan)
  | .api (.refused message status) => do
    say (refusedLine message status fileKey)
    return none
  | .data e => do
    say ("❌ " ++ e.message)
    return none
  | e => throw e

/-- A plan, or none after a failure that was told of. -/
def tryPlan (s : Service) (a : FetchArgs) (c : Config) : Talking (Option FetchPlan) := do
  say ("📥 Fetching Figma file: " ++ s.fileKey.text)
  say ("   Page: " ++ a.page.shown)
  say ("   Frame: " ++ a.frame.shown)
  tryCatch (some <$> planFetch s a c) (fetchFailed s.fileKey)

/-- The line that tells how to get a token. -/
def tokenHint : String :=
  "   取得方式：Figma → Settings → Personal access tokens → 新增"

/-- **The command** that fetches a frame. -/
def fetchCommand (a : FetchArgs) (c : Config) (env : Environment) : Command Nat := do
  match serviceOf c env a.fileKey [tokenHint] with
  | .error lines => do
    talking (sayAll lines)
    return 1
  | .ok s =>
    match ← talking (tryPlan s a c) with
    | none => return 1
    | some plan => do
      let written ← filing (writePlan plan)
      talking do
        reportPaths written
        say "   ✅ Conversion complete!"
      return 0

end DesignMarkup
