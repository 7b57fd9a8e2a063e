import ServerManifests.Configuration.Fields
import ServerManifests.Failure

/-!
Layers of values: the defaults, then documents and overrides, each on top of what came
before. Mappings merge key by key and any other value replaces what was there. A null for a
key that was set drops it; for a key that was not it is kept, so that whoever reads the key
sees it. The configuration is read from the result.
-/
namespace ServerManifests

open Yaml

namespace Values

mutual

def merge (base overlay : Value) : Value :=
  match overlay with
  | .map overlay =>
    match base with
    | .map entries => .map (mergeEntries entries overlay)
    | _ => .map overlay
  | overlay => overlay
termination_by structural overlay

def mergeEntries (base overlay : Entries) : Entries :=
  match overlay with
  | [] => base
  | (key, value) :: rest =>
    let merged := match base.find? key with
      | some present =>
        if value.isNull then base.remove key else base.replace key (merge present value)
      | none => base ++ [(key, value)]
    mergeEntries merged rest
termination_by structural overlay

end

end Values

open Values

structure Layers where
  merged : Value

namespace Layers

def defaults : Layers := ⟨.ofJson (Configuration.write {})⟩

/-- Merges a document that was read; a null contributes nothing. -/
def withValue (layers : Layers) (overlay : Value) : Except Failure Layers :=
  match overlay with
  | .null => .ok layers
  | .map _ => .ok ⟨merge layers.merged overlay⟩
  | _ => .error (.invalid .noMapping)

def withDocument (layers : Layers) (text : String) : Except Failure Layers :=
  match Value.parse? text with
  | none => .error .noDocument
  | some overlay => layers.withValue overlay

def withFile (layers : Layers) (file : Except FileProblem String) : Except Failure Layers :=
  match file with
  | .error problem => .error (.file problem)
  | .ok text => layers.withDocument text

def withOverride (layers : Layers) (expression : String) : Except Failure Layers :=
  match applyOverride layers.merged expression with
  | .error error => .error (.invalidOverride expression error)
  | .ok merged => .ok ⟨merged⟩

def build (layers : Layers) : Except Failure Configuration :=
  (Configuration.read layers.merged).mapError .unreadable

end Layers

/-- The configuration of values files and the overrides on top of them. -/
def Configuration.load (files : List (Except FileProblem String)) (overrides : List String) :
    Except Failure Configuration := do
  let layers ← files.foldlM Layers.withFile Layers.defaults
  let layers ← overrides.foldlM Layers.withOverride layers
  layers.build

end ServerManifests
