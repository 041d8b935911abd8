import DesignMarkup.Conversion
import DesignMarkup.Files.Store
import DesignMarkup.Json.Writer
import DesignMarkup.Page.Document

/-!
# `Page.Output` — the files of a conversion

A conversion is written as a page. Unless the page is that of a child, its stylesheet and, if the design
uses components, their report are written beside it.

## Contents

* `componentsText`: the report of the components;
* `OutputFile`, `outputFiles`: what a conversion consists of, as paths and texts;
* `writeAll`, `writeConversion`: the writing.
-/

namespace DesignMarkup.Page

/-- The report of a component as data. -/
def componentJson (i : ComponentInfo) : Json :=
  .object [("name", .string i.name), ("type", .string i.typeName), ("id", .string i.id)]

/-- The report of components. -/
def componentsText (components : List Layer) : String :=
  (Json.array (components.map fun l => componentJson l.info)).indented 0

/-- A file to be written. -/
structure OutputFile where
  path : Path
  content : String
  deriving DecidableEq

/-- The page of a conversion. -/
def pageText (r : Result) (o : Options) : String :=
  document r.html o.title o.isChild o.bootstrapVersion

/-- **The files of a conversion** in the order in which they are written. -/
def outputFiles (folder : String) (r : Result) (styles : StyleTable) (o : Options)
    (fileName : String) : List OutputFile :=
  let base := Path.read folder
  let page : OutputFile := ⟨base.append fileName, pageText r o⟩
  if o.isChild then [page]
  else
    let sheet : OutputFile := ⟨base.append "styles.css", stylesheet styles o.bootstrapVersion⟩
    let report : OutputFile := ⟨base.append "components.json", componentsText r.components⟩
    if r.components.isEmpty then [page, sheet] else [page, sheet, report]

/-- Writes files in order and yields their paths. -/
def writeAll : List OutputFile → Filing (List String)
  | [] => return []
  | f :: rest => do
    writeFile f.path f.content
    let paths ← writeAll rest
    return f.path.text :: paths

/-- **Writes the files of a conversion** and yields their paths. -/
def writeConversion (folder : String) (r : Result) (styles : StyleTable) (o : Options)
    (fileName : String) : Filing (List String) :=
  writeAll (outputFiles folder r styles o fileName)

end DesignMarkup.Page
