import AngularUplift.Yaml.Node

/-!
# Merge keys of YAML

Under a merge key a mapping takes in the entries of another mapping, or of all mappings of a list. They come
before its own entries, so that its own ones win.

## Main definitions

* `Yaml.Node.tag`: what a node is.
* `Yaml.Node.merged`: a node without merge keys.
-/

namespace AngularUplift.Yaml

/-- What a node is. -/
def Node.tag : Node → Tag
  | .scalar tag _ => tag
  | .list tag _ => tag
  | .mapping tag _ => tag

/-- The entries that a node adds to a mapping: those of a mapping, or of all mappings of a list, the last one
first. Nothing else can be merged. -/
def Node.mergeable? : Node → Option (List (Node × Node))
  | .scalar .. => none
  | .list _ items => do
    let all ← items.mapM fun item =>
      match item with
      | .mapping _ entries => some entries
      | _ => none
    return all.reverse.flatten
  | .mapping _ entries => some entries

/-- An entry that has no value, in place of a merge that cannot be made. -/
def refusedEntry : Node × Node := (.scalar .other [], .scalar .null [])

/-- The entries of a mapping with what is merged into it. The key of the plain value is a text. -/
def mergeEntries (entries : List (Node × Node)) : List (Node × Node) :=
  let own := (entries.filter (·.1.tag != .merge)).map fun (key, value) =>
    match key with
    | .scalar .value text => (.scalar .text text, value)
    | key => (key, value)
  match (entries.filter (·.1.tag == .merge)).mapM (·.2.mergeable?) with
  | some merged => merged.flatten ++ own
  | none => refusedEntry :: own

mutual

/-- A node without merge keys. -/
def Node.merged : Node → Node
  | .scalar tag text => .scalar tag text
  | .list tag items => .list tag (mergedItems items)
  | .mapping tag entries =>
    if tag = .mapping then .mapping tag (mergeEntries (mergedEntries entries))
    else .mapping tag (mergedEntries entries)

/-- Nodes without merge keys. -/
def mergedItems : List Node → List Node
  | [] => []
  | item :: rest => item.merged :: mergedItems rest

/-- Entries of a mapping whose keys and values are without merge keys. -/
def mergedEntries : List (Node × Node) → List (Node × Node)
  | [] => []
  | (key, value) :: rest => (key.merged, value.merged) :: mergedEntries rest

end

end AngularUplift.Yaml
