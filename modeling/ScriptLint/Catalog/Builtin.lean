/-
**The catalog that every project starts from.**

* `queryOperators` — the methods that query expressions stand for; `shadowedOperators` — those with
  the names of methods that lists, arrays, strings and text builders have themselves.
* `builtinTypes`, `builtinExtensions` — the engine, the editor, spreadsheet libraries, query
  operators and the interfaces of update loops.
* `Catalog.builtin` — the catalog of these.
-/

import ScriptLint.Catalog

namespace ScriptLint

/-- The query operators. -/
def queryOperators : List String :=
  ["Aggregate", "All", "Any", "Append", "AsEnumerable", "Average", "Cast", "Chunk", "Concat",
    "Contains", "Count", "DefaultIfEmpty", "Distinct", "DistinctBy", "ElementAt",
    "ElementAtOrDefault", "Except", "ExceptBy", "First", "FirstOrDefault", "GroupBy", "GroupJoin",
    "Intersect", "IntersectBy", "Join", "Last", "LastOrDefault", "LongCount", "Max", "MaxBy",
    "Min", "MinBy", "OfType", "OrderBy", "OrderByDescending", "Prepend", "Reverse", "Select",
    "SelectMany", "SequenceEqual", "Single", "SingleOrDefault", "Skip", "SkipLast", "SkipWhile",
    "Sum", "Take", "TakeLast", "TakeWhile", "ThenBy", "ThenByDescending", "ToArray",
    "ToDictionary", "ToHashSet", "ToList", "ToLookup", "Union", "UnionBy", "Where", "Zip"]

/-- The query operators that common types also have as methods of their own. -/
def shadowedOperators : List String :=
  ["Append", "Concat", "Contains", "Join", "Max", "Min", "Reverse", "ToArray"]

/-- Types of a namespace of which nothing else is known. -/
def plainTypes (home : String) (names : List String) : List CatalogType :=
  names.map fun name => { name := home ++ "." ++ name }

/-- Interfaces of a namespace, each with the methods it lists. -/
def plainInterfaces (home : String) (entries : List (String × List String)) : List CatalogType :=
  entries.map fun (name, methods) =>
    { name := home ++ "." ++ name, isInterface := true, methods }

/-- The component hierarchy of the engine and its entry points. -/
def unityEngineTypes : List CatalogType :=
  [{ name := "UnityEngine.Object",
      methods :=
        ["Destroy", "DestroyImmediate", "Instantiate", "FindObjectOfType", "FindObjectsOfType",
          "DontDestroyOnLoad"] },
    { name := "UnityEngine.Component", base := some "UnityEngine.Object",
      methods :=
        ["GetComponent", "GetComponents", "GetComponentInChildren", "GetComponentsInChildren",
          "GetComponentInParent", "TryGetComponent", "CompareTag", "SendMessage",
          "BroadcastMessage"] },
    { name := "UnityEngine.Behaviour", base := some "UnityEngine.Component" },
    { name := "UnityEngine.MonoBehaviour", base := some "UnityEngine.Behaviour",
      methods :=
        ["Invoke", "InvokeRepeating", "CancelInvoke", "IsInvoking", "StartCoroutine",
          "StopCoroutine", "StopAllCoroutines", "print"] },
    { name := "UnityEngine.ScriptableObject", base := some "UnityEngine.Object",
      methods :=
        ["CreateInstance"] },
    { name := "UnityEngine.GameObject", base := some "UnityEngine.Object" },
    { name := "UnityEngine.Transform", base := some "UnityEngine.Component" }] ++
    plainTypes "UnityEngine"
      ["Debug", "Application", "Resources", "Time", "Mathf", "Physics", "Input", "GUILayout"] ++
    plainTypes "UnityEngine.SceneManagement"
      ["SceneManager"]

/-- The entry points of the editor. -/
def unityEditorTypes : List CatalogType :=
  [{ name := "UnityEditor.Editor", base := some "UnityEngine.ScriptableObject" },
    { name := "UnityEditor.EditorWindow", base := some "UnityEngine.ScriptableObject",
      methods :=
        ["GetWindow", "Show", "Close", "Repaint", "Focus"] }] ++
    plainTypes "UnityEditor"
      ["AssetDatabase", "EditorUtility", "EditorApplication", "EditorGUI", "EditorGUILayout",
        "EditorGUIUtility", "EditorPrefs", "PrefabUtility", "Selection", "Undo", "Handles",
        "SerializedObject", "BuildPipeline"] ++
    plainTypes "UnityEditor.SceneManagement"
      ["EditorSceneManager"]

/-- The spreadsheet libraries. -/
def spreadsheetTypes : List CatalogType :=
  [{ name := "OfficeOpenXml.ExcelPackage", interfaces := ["System.IDisposable"] },
    { name := "NPOI.XSSF.UserModel.XSSFWorkbook", interfaces := ["NPOI.SS.UserModel.IWorkbook"] },
    { name := "NPOI.HSSF.UserModel.HSSFWorkbook", interfaces := ["NPOI.SS.UserModel.IWorkbook"] },
    { name := "ClosedXML.Excel.XLWorkbook", interfaces := ["ClosedXML.Excel.IXLWorkbook"] }] ++
    plainTypes "OfficeOpenXml"
      ["ExcelWorkbook", "ExcelWorksheet", "ExcelWorksheets", "ExcelRange"] ++
    plainTypes "NPOI.SS.UserModel"
      ["WorkbookFactory"] ++
    plainTypes "ExcelDataReader"
      ["ExcelReaderFactory"] ++
    plainInterfaces "NPOI.SS.UserModel"
      [("IWorkbook", []), ("ISheet", []), ("IRow", []), ("ICell", [])] ++
    plainInterfaces "ClosedXML.Excel"
      [("IXLWorkbook", []), ("IXLWorksheet", [])] ++
    plainInterfaces "ExcelDataReader"
      [("IExcelDataReader", [])]

/-- The query operators and what the other types list. -/
def systemTypes : List CatalogType :=
  [{ name := "System.Linq.Enumerable", methods := queryOperators },
    { name := "System.Linq.Queryable", methods := queryOperators }] ++
    plainInterfaces "System"
      [("IDisposable", ["Dispose"])]

/-- The interfaces by which frameworks call a method every frame. -/
def tickTypes : List CatalogType :=
  plainInterfaces "Zenject"
      [("ITickable", ["Tick"]), ("ILateTickable", ["LateTick"]),
        ("IFixedTickable", ["FixedTick"])] ++
    plainInterfaces "VContainer.Unity"
      [("ITickable", ["Tick"]), ("ILateTickable", ["LateTick"]),
        ("IFixedTickable", ["FixedTick"])]

/-- The types that are known at the start. -/
def builtinTypes : List CatalogType :=
  unityEngineTypes ++ unityEditorTypes ++ spreadsheetTypes ++ systemTypes ++ tickTypes

/-- The extension sets that are known at the start. -/
def builtinExtensions : List ExtensionSet :=
  [⟨"System.Linq.Enumerable", queryOperators, shadowedOperators⟩,
    ⟨"ExcelDataReader.ExcelDataReaderExtensions", ["AsDataSet"], []⟩]

/-- The catalog that every project starts from. -/
def Catalog.builtin : Catalog :=
  builtinExtensions.foldl addExtensions (builtinTypes.foldl addType empty)

end ScriptLint
