import Oreo.Json

/-!
# Options of a run

A run over a source needs two settings: the name under which diagnostics show the source, and
how deeply statements and brackets may nest. The name decorates messages only.
-/

namespace Oreo

/-- The settings of a run. -/
structure Options where
  /-- The name shown in diagnostics. -/
  fileName : String := "main.oreo"
  /-- The number of nested statements, blocks and brackets that are accepted. -/
  maxDepth : Nat := 256
deriving DecidableEq, Repr

/-- The last component of a slash-separated path. Empty components and those that name the
directory itself do not count; a path that ends in its parent directory has no name. -/
def pathName? (path : String) : Option String :=
  let components := (path.splitOn "/").filter fun part => part != "" && part != "."
  components.getLast?.filter (· != "..")

namespace Options

/-- The options for a file: its own name is shown. -/
def forPath (path : String) : Options :=
  match pathName? path with
  | some name => { fileName := name }
  | none => {}

/-- The options as JSON. -/
def toJson (options : Options) : Json :=
  .object [("file_name", .string options.fileName), ("max_depth", .natural options.maxDepth)]

end Options

namespace Json

/-- The values of a record with the given field names, each in its place. A record is written
either as an object, in which other names are passed over, or as an array in field order. -/
def record? (names : List String) : Json → Option (List (Option Json))
  | .object fields => some (names.map fun name => List.lookup name fields)
  | .array items =>
    if items.length ≤ names.length then
      some (items.map some ++ List.replicate (names.length - items.length) none)
    else none
  | _ => none

/-- A natural number below a bound. -/
def naturalBelow? (bound : Nat) : Json → Option Nat
  | .integer (.ofNat value) => if value < bound then some value else none
  | _ => none

/-- A whole number that fits in a word of 32 bits. -/
def word? (json : Json) : Option UInt32 := (json.naturalBelow? UInt32.size).map UInt32.ofNat

/-- A text. -/
def string? : Json → Option String
  | .string value => some value
  | _ => none

/-- A list of values. -/
def array? : Json → Option (List Json)
  | .array items => some items
  | _ => none

end Json

/-- Reads options; a field that is left out keeps its default. -/
def Options.ofJson? (json : Json) : Option Options := do
  let [fileName, maxDepth] ← json.record? ["file_name", "max_depth"] | none
  let fileName ← match fileName with
    | some value => value.string?
    | none => some { : Options }.fileName
  let maxDepth ← match maxDepth with
    | some value => value.naturalBelow? UInt64.size
    | none => some { : Options }.maxDepth
  return { fileName, maxDepth }

end Oreo
