import WebhookRelay.Toml.Statement

/-!
# TOML

A document is read as statements, which fill a tree in their order; the tree is then
seen as a JSON value.
-/

set_option autoImplicit false

namespace WebhookRelay.Toml

structure Draft where
  root : Members
  header : List String

def Draft.add? (draft : Draft) : Statement → Option Draft
  | .table path => do
      let name ← path.getLast?
      let root ← draft.root.changeAt? (Members.openTable? name) path.dropLast
      return { root, header := path }
  | .addTable path => do
      let name ← path.getLast?
      let root ← draft.root.changeAt? (Members.addTable? name) path.dropLast
      return { root, header := path }
  | .assign key value => do
      let root ← draft.root.changeAt? (Members.assign? key value) draft.header
      return { draft with root }

/-- A byte order mark in front of a text counts for nothing. -/
def withoutMark : List Char → List Char
  | '\ufeff' :: rest => rest
  | chars => chars

def parse? (text : String) : Option Json := do
  let statements ← statements? (withoutMark text.toList)
  let draft ← statements.foldlM Draft.add? ⟨[], []⟩
  return .obj (jsonOfMembers draft.root)

end WebhookRelay.Toml
