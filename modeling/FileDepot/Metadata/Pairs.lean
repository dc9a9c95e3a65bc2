import FileDepot.Failure
import FileDepot.Text.Blank
import FileDepot.Text.Pieces

/-!
# Metadata in pairs

Metadata given as texts of the form `key=value`.

Contents:

* `MetadataPairs.split?` — the key and the value of one text;
* `MetadataPairs.set` — a pair put into a list with distinct keys;
* `MetadataPairs.read` — the pairs of a list of texts, or the first text that is none.
-/

namespace FileDepot.MetadataPairs

/-- The stripped text before the first equals sign, which must not be blank, and the text behind it. -/
def split? (item : String) : Option (String × String) :=
  match Text.cutAt? '=' item.toList with
  | none => none
  | some (key, value) =>
    let key := Text.strip key
    if key.isEmpty then none else some (String.ofList key, String.ofList value)

/-- The pairs with a key set; a key that is there keeps its place. -/
def set (key value : String) : List (String × String) → List (String × String)
  | [] => [(key, value)]
  | (k, v) :: rest => if k = key then (k, value) :: rest else (k, v) :: set key value rest

/-- The failure of a text that is no pair. -/
def refusal (item : String) : Failure :=
  .invalid s!"Invalid metadata entry '{item}', expected KEY=VALUE"

/-- Reads pairs one after another into those that have been read. -/
def readInto (done : List (String × String)) : List String → Except Failure (List (String × String))
  | [] => .ok done
  | item :: rest =>
    match split? item with
    | some (key, value) => readInto (set key value done) rest
    | none => .error (refusal item)

/-- Reads pairs; a later one overwrites an earlier one of the same key. -/
def read (items : List String) : Except Failure (List (String × String)) :=
  readInto [] items

end FileDepot.MetadataPairs
