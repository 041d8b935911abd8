import DesignMarkup.Json.Reader
import DesignMarkup.Text.Utf8

/-!
# `Design.Error` — what can be wrong with design data

## Contents

* `DataError`: the causes;
* `DataError.message`: their wording.
-/

namespace DesignMarkup

/-- What is wrong with design data. -/
inductive DataError where
  /-- A node is not an object. -/
  | nodeNotObject (value : Json)
  /-- The children of the node with this name are not an array. -/
  | childrenNotArray (nodeName : String)
  /-- Fills or strokes are not an array. -/
  | paintsNotArray (value : Json)
  /-- Effects are not an array. -/
  | effectsNotArray (value : Json)
  /-- The visibility of an effect is neither true nor false. -/
  | visibleNotBool (value : Json)
  /-- A measure is not a number. -/
  | notNumber (value : Json)
  /-- A field is not a string. -/
  | notString (field : String) (value : Json)
  /-- A field is not an object. -/
  | notObject (field : String) (value : Json)
  /-- A colour lacks a channel. -/
  | channelMissing (channel : String) (color : List (String × Json))
  /-- The document has no page with this name. -/
  | pageNotFound (name : String)
  /-- The page has no node with this name. -/
  | frameNotFound (name : String)
  /-- The data hold no node. -/
  | noNode
  /-- The file is not UTF-8. -/
  | fileNotUtf8 (path : String) (error : Text.Utf8Error)
  /-- The file is not JSON. -/
  | fileNotJson (path : String) (error : Json.ReadError)

/-- The wording of an error. -/
def DataError.message : DataError → String
  | .nodeNotObject v => "節點格式錯誤：應為 JSON 物件，目前是 " ++ v.kindName
  | .childrenNotArray name => "'" ++ (if name = "" then "?" else name) ++ "' 的 children 應為陣列"
  | .paintsNotArray v => "fills / strokes 應為陣列，目前是 " ++ v.kindName
  | .effectsNotArray v => "effects 應為陣列，目前是 " ++ v.kindName
  | .visibleNotBool v => "effect.visible 應為 true/false，目前是 " ++ v.display
  | .notNumber v => "數值欄位格式錯誤：" ++ v.display
  | .notString field v => field ++ " 應為字串，目前是 " ++ v.display
  | .notObject field v => field ++ " 應為 JSON 物件，目前是 " ++ v.kindName
  | .channelMissing channel color =>
    "顏色缺少 " ++ channel ++ " 通道：" ++ (Json.object color).display
  | .pageNotFound name => "找不到頁面：" ++ name
  | .frameNotFound name => "找不到 frame / component：" ++ name
  | .noNode => "No node data found in Figma file"
  | .fileNotUtf8 path e => "'" ++ path ++ "' 不是 UTF-8 編碼：" ++ e.message
  | .fileNotJson path e => "'" ++ path ++ "' 不是合法的 JSON：" ++ e.message

end DesignMarkup
