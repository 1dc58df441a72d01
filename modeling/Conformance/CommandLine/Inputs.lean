import Conformance.CommandLine.Perform
import Conformance.Machine.Kernel

namespace Conformance.CommandLine

-- The files that the arguments of a command name for reading.
def Command.inputs : Command → List Path
  | .run a => a.config.toList ++ a.catalog.toList
  | .list catalog _ => catalog.toList
  | .dumpConfig config _ => config.toList
  | .dumpCatalog _ => []
  | .validateLog log => [log]
  | .help _ => []

def toolPaths (c : Config) : List Path :=
  [c.toolchain.compiler, c.toolchain.assembler, c.toolchain.emulator]

-- The tools and the sources of a run, once its configuration and its catalog
-- can be read.
def Command.furtherInputs (station : Station σ) (w : World σ) : Command → List Path
  | .run a =>
      let found : Performing σ (List Path) := do
        let c ← effectiveConfig station.host a
        let catalog ← loadCatalog station.host a.catalog
        let fixtures := (catalog.selectedSuites a.categories).flatMap Suite.fixtures
        pure (toolPaths c ++ fixtures.map fun f => f.sourcePath c.fixtureRoot)
      match (found.run (.opened station.host w)).1 with
      | .ok paths => paths
      | .error _ => []
  | _ => []

-- A file brought in from outside. Scripts are taken to be executable.
def bringIn (t : Tree) (cwd : Place) (path : Path) (data : Text.Bytes) : Tree :=
  let t := (t.makeParent cwd path).2
  match t.locate cwd path with
  | .ok place => t.set place (.file data (Machine.interpreterOf data).isSome)
  | .error _ => t

-- The places that a command left different, in the order they were made.
def differences (before after : Tree) : List (Place × Node) :=
  after.nodes.filter fun entry => before.node? entry.1 ≠ some entry.2

end Conformance.CommandLine
