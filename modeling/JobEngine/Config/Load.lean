-- SUMMARY: The effective settings: defaults, a file, and the environment over both.
import JobEngine.Config.Layers
import JobEngine.Config.Record
import JobEngine.Config.Toml
import JobEngine.Config.Yaml
import JobEngine.Json.Reader

/-!
# Loading settings

`EngineConfig.load` takes everything from the environment; `EngineConfig.loadFrom` puts a file below
it. A file is JSON, TOML or YAML, which its name tells. Both fail for a reason of the domain: a file
that is missing or of no known format, a file that cannot be parsed, a value of the wrong type.
-/

namespace JobEngine

/-- The formats of configuration files. -/
inductive FileFormat where
  | toml
  | json
  | yaml
deriving DecidableEq, Repr

namespace FileFormat

/-- The format that a file name's extension tells. -/
def ofExtension? : String → Option FileFormat
  | "toml" => some .toml
  | "json" => some .json
  | "yaml" | "yml" => some .yaml
  | _ => none

/-- All extensions of known formats. -/
def extensions : List String := ["toml", "json", "yaml", "yml"]

/-- The value of a text in a format. -/
def parse? : FileFormat → String → Option Json
  | .toml, s => Toml.parse? s
  | .json, s => Json.parse? s
  | .yaml, s => Yaml.parse? s

end FileFormat

/-- The part of a path after its last slash. -/
def fileNameOf (path : String) : String := ((path.splitOn "/").getLast?).getD ""

/-- What follows the last point of a file name, none if nothing stands before that point. -/
def extensionOf (path : String) : String :=
  match ((fileNameOf path).splitOn ".").reverse with
  | extension :: before => if before.all String.isEmpty then "" else extension
  | [] => ""

/-- A file as it was found. -/
structure FoundFile where
  path : String
  content : String

/-- The paths that a path may mean: itself, or with the extension of a known format added. -/
def FoundFile.candidates (path : String) : List String :=
  path :: FileFormat.extensions.map (path ++ "." ++ ·)

/-- The first file that a path may mean. -/
def FoundFile.find? (fileText : String → Option String) (path : String) : Option FoundFile :=
  (candidates path).findSome? fun p => (fileText p).map (⟨p, ·⟩)

mutual
/-- Integers of more than 64 bits as doubles: settings know no others. -/
def wordsOnly : Json → Json
  | .int n => if isWord n then .int n else .float (.ofInt n)
  | .arr items => .arr (wordsOnlyItems items)
  | .obj fields => .obj (wordsOnlyFields fields)
  | v => v
def wordsOnlyItems : List Json → List Json
  | [] => []
  | v :: rest => wordsOnly v :: wordsOnlyItems rest
def wordsOnlyFields : List (String × Json) → List (String × Json)
  | [] => []
  | (name, v) :: rest => (name, wordsOnly v) :: wordsOnlyFields rest
end

/-- The settings in a file. -/
def FoundFile.settings (f : FoundFile) : Except ConfigFailure (List (String × Json)) :=
  match FileFormat.ofExtension? (extensionOf f.path) with
  | none =>
    .error (.other ("configuration file \"" ++ f.path ++ "\" is not of a registered file format"))
  | some format =>
    match format.parse? f.content with
    | some (.obj fields) => .ok (Layers.fieldsOf (wordsOnly (.obj fields)))
    | some _ => .error (.unparsable "the document is not a table" (some f.path))
    | none => .error (.unparsable "the document is malformed" (some f.path))

namespace EngineConfig

/-- The variable that holds the usual level of logging. -/
def levelVariable : String := "RUST_LOG"

/-- The settings that layers of sources amount to. -/
def ofLayers (env : Table String String) (layers : List (List (String × Json))) :
    Except ConfigFailure EngineConfig :=
  let settings := layers.foldl Layers.apply (.obj [])
  match read? .lenient ((env.get? levelVariable).getD LoggingConfig.usualLevel) settings with
  | some c => .ok c
  | none => .error (.other "a setting has a value of the wrong type")

/-- The settings in the environment. -/
def load (env : Table String String) : Except ConfigFailure EngineConfig :=
  ofLayers env [Layers.environment env]

/-- The settings in a file and, over them, in the environment. -/
def loadFrom (fileText : String → Option String) (path : String) (env : Table String String) :
    Except ConfigFailure EngineConfig :=
  match FoundFile.find? fileText path with
  | none => .error (.other ("configuration file \"" ++ path ++ "\" not found"))
  | some file => do ofLayers env [← file.settings, Layers.environment env]

end EngineConfig

end JobEngine
