import DesignMarkup.Argument
import DesignMarkup.Html
import DesignMarkup.Options
import DesignMarkup.Style.Table

/-!
# `Page.Document` — whole pages and stylesheets

## Contents

* `frameworkRoot`: where the style framework is served;
* `document`: a page around converted elements;
* `stylesheet`: the stylesheet of a conversion;
* `Link`, `linkIndex`: the page that links the pages of a frame's children.
-/

namespace DesignMarkup.Page

/-- The folder from which a release of the style framework is served. -/
def frameworkRoot (version : String) : String :=
  "https://cdn.jsdelivr.net/npm/bootstrap@" ++ version ++ "/dist"

/-- The stylesheet as a page refers to it. -/
def stylesheetHref (isChild : Bool) : String :=
  if isChild then "../styles.css" else "styles.css"

/-- A page with the given body. -/
def document (body title : String) (isChild : Bool) (version : String) : String :=
  "<!DOCTYPE html>\n" ++
  "<html lang=\"en\">\n" ++
  "<head>\n" ++
  "    <meta charset=\"UTF-8\">\n" ++
  "    <meta name=\"viewport\" content=\"width=device-width, initial-scale=1.0\">\n" ++
  "    <title>" ++ Html.escape title ++ "</title>\n" ++
  "\n" ++
  "    <!-- Bootstrap CSS -->\n" ++
  "    <link href=\"" ++ frameworkRoot version ++ "/css/bootstrap.min.css\" rel=\"stylesheet\">\n" ++
  "\n" ++
  "    <!-- Custom Styles -->\n" ++
  "    <link href=\"" ++ stylesheetHref isChild ++ "\" rel=\"stylesheet\">\n" ++
  "</head>\n" ++
  "<body>\n" ++
  "    <div class=\"container-fluid p-4\">\n" ++
  body ++
  "    </div>\n" ++
  "\n" ++
  "    <!-- Bootstrap JS Bundle -->\n" ++
  "    <script src=\"" ++ frameworkRoot version ++ "/js/bootstrap.bundle.min.js\"></script>\n" ++
  "</body>\n" ++
  "</html>\n"

/-- The stylesheet of a conversion: three lines of comment, then the rules. -/
def stylesheet (t : StyleTable) (version : String) : String :=
  "/* Generated from Figma */\n" ++
  "/* Bootstrap version: " ++ version ++ " */\n" ++
  "/* Spacing uses Bootstrap utility classes */\n\n" ++
  t.toCss

/-- A page that a link index leads to. -/
structure Link where
  name : String
  id : String
  fileName : String
  deriving DecidableEq, Repr

/-- A link of the index. -/
def Link.render (l : Link) : String :=
  "            <a href=\"" ++ Html.escape l.fileName ++
    "\" class=\"list-group-item list-group-item-action\">\n" ++
  "                <h5 class=\"mb-1\">" ++ Html.escape l.name ++ "</h5>\n" ++
  "                <p class=\"mb-1 text-muted\">ID: " ++ Html.escape l.id ++ "</p>\n" ++
  "            </a>\n"

/-- The heading and the links of an index; the heading of nothing names nothing. -/
def indexBody (frameName : Argument) (links : List Link) : String :=
  "        <h1 class=\"mb-4\">Frame: " ++ Html.escape frameName.characters ++ "</h1>\n" ++
  "        <div class=\"list-group\">\n" ++
  String.join (links.map Link.render) ++
  "        </div>\n"

/-- **The link index** of a frame. -/
def linkIndex (frameName : Argument) (links : List Link) (version : String) : String :=
  document (indexBody frameName links) ("Frame: " ++ frameName.shown) true version

end DesignMarkup.Page
