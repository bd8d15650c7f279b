/-
**Tables while a document is read.**

A table can be opened by a header, come into being because a header or a dotted key passes through
it, or stand as a value. What may still be added to it depends on how it came to be.

* `Draft` — a table under construction: whether only its parts were named so far, and whether dotted
  keys made it.
* `Draft.modifyAt?` — a change of the table at the end of a path. Missing tables are made on the way;
  an array of tables stands for its last one; a value ends the way; and dotted keys do not reach into
  a table that has a header.
* `Draft.assign?` — a key with a value; each key once.
* `Draft.openTable?`, `Draft.openElement?` — what the two forms of header do.
* `Draft.entries` — the finished table.
-/

import ScriptLint.Toml.Value

namespace ScriptLint.Toml

/-- What a key stands for while a document is read. -/
inductive Item where
  /-- A value. -/
  | value (value : Value)
  /-- A table. -/
  | table (isImplicit isDotted : Bool) (items : List (String × Item))
  /-- Tables opened by one header after the other. -/
  | tables (elements : List (List (String × Item)))
deriving Inhabited

/-- A table under construction. -/
structure Draft where
  /-- The table came into being on the way to another. -/
  isImplicit : Bool
  /-- Dotted keys made the table. -/
  isDotted : Bool
  items : List (String × Item)
deriving Inhabited

namespace Draft

/-- The table that a header opens. -/
def explicit (items : List (String × Item)) : Draft :=
  ⟨false, false, items⟩

/-- The table as an item. -/
def toItem (draft : Draft) : Item :=
  .table draft.isImplicit draft.isDotted draft.items

/-- The item of a key, replaced or added. -/
def set (draft : Draft) (key : String) (item : Item) : Draft :=
  if draft.items.any (·.1 == key) then
    { draft with items := draft.items.map fun entry => if entry.1 == key then (key, item) else entry }
  else
    { draft with items := draft.items ++ [(key, item)] }

/-- Changes the table at the end of a path. -/
def modifyAt? (isDotted : Bool) (change : Draft → Option Draft) :
    List String → Draft → Option Draft
  | [], draft => change draft
  | key :: path, draft =>
    match draft.items.lookup key with
    | none => do
      let inner ← modifyAt? isDotted change path ⟨true, isDotted, []⟩
      pure (draft.set key inner.toItem)
    | some (.value _) => none
    | some (.table isImplicit wasDotted items) =>
      if isDotted && !isImplicit then
        none
      else do
        let inner ← modifyAt? isDotted change path ⟨isImplicit, wasDotted, items⟩
        pure (draft.set key inner.toItem)
    | some (.tables elements) => do
      let last ← elements.getLast?
      let inner ← modifyAt? isDotted change path (explicit last)
      pure (draft.set key (.tables (elements.dropLast ++ [inner.items])))

/-- Gives a key that is not there a value. -/
def insert? (viaPath : Bool) (key : String) (value : Value) (draft : Draft) : Option Draft :=
  if draft.isDotted != viaPath || draft.items.any (·.1 == key) then
    none
  else
    some (draft.set key (.value value))

/-- Gives a dotted key a value. -/
def assign? (path : List String) (key : String) (value : Value) (draft : Draft) : Option Draft :=
  modifyAt? true (insert? (!path.isEmpty) key value) path draft

/-- Opens the table of a key, which must be new or only named on the way so far. -/
def openTable? (key : String) (draft : Draft) : Option Draft :=
  match draft.items.lookup key with
  | none => some (draft.set key (explicit []).toItem)
  | some (.table true false items) => some (draft.set key (explicit items).toItem)
  | _ => none

/-- Opens the next table of an array of tables. -/
def openElement? (key : String) (draft : Draft) : Option Draft :=
  match draft.items.lookup key with
  | none => some (draft.set key (.tables [[]]))
  | some (.tables elements) => some (draft.set key (.tables (elements ++ [[]])))
  | _ => none

end Draft

mutual

/-- The value of an item. -/
def Item.finish : Item → Value
  | .value value => value
  | .table _ _ items => .table (finishItems items)
  | .tables elements => .array (finishTables elements)

/-- The entries of a table. -/
def finishItems : List (String × Item) → Entries
  | [] => []
  | (key, item) :: more => (key, item.finish) :: finishItems more

/-- The tables of an array of tables. -/
def finishTables : List (List (String × Item)) → List Value
  | [] => []
  | items :: more => .table (finishItems items) :: finishTables more

end

/-- The finished table. -/
def Draft.entries (draft : Draft) : Entries :=
  finishItems draft.items

end ScriptLint.Toml
