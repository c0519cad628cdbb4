import Dataflow.Block.Builtin
import Dataflow.Block.Scripted

/-!
# Bare and mixed blocks

A bare block has nothing but a work call, which is done at once. A mixed block is a built-in, a
scripted or a bare one, so that a graph may hold all of them.
-/

namespace Dataflow

/-- A block without ports and settings that is done at its first work call. -/
structure Bare where
  deriving DecidableEq, Repr

instance : Block Bare where
  description _ := ""
  inputs _ := []
  outputs _ := []
  descriptors _ := []
  settings _ := []
  set b key _ := Block.refuse b key
  settle b := (.ok (), b)
  isPermissive _ := false
  start b := .done (.ok (), b)
  stop := .done
  pause := .done
  resume := .done
  work := Work.report .done

/-- A block of any of the library's types. -/
inductive MixedBlock where
  | builtin (b : Builtin)
  | scripted (b : Scripted)
  | bare (b : Bare)

instance : Block MixedBlock where
  description
    | .builtin b => Block.description b
    | .scripted b => Block.description b
    | .bare b => Block.description b
  inputs
    | .builtin b => Block.inputs b
    | .scripted b => Block.inputs b
    | .bare b => Block.inputs b
  outputs
    | .builtin b => Block.outputs b
    | .scripted b => Block.outputs b
    | .bare b => Block.outputs b
  descriptors
    | .builtin b => Block.descriptors b
    | .scripted b => Block.descriptors b
    | .bare b => Block.descriptors b
  settings
    | .builtin b => Block.settings b
    | .scripted b => Block.settings b
    | .bare b => Block.settings b
  set b key v :=
    match b with
    | .builtin b => (Block.set b key v).map id .builtin
    | .scripted b => (Block.set b key v).map id .scripted
    | .bare b => (Block.set b key v).map id .bare
  settle
    | .builtin b => (Block.settle b).map id .builtin
    | .scripted b => (Block.settle b).map id .scripted
    | .bare b => (Block.settle b).map id .bare
  isPermissive
    | .builtin b => Block.isPermissive b
    | .scripted b => Block.isPermissive b
    | .bare b => Block.isPermissive b
  start
    | .builtin b => (Block.start b).map (·.map id .builtin)
    | .scripted b => (Block.start b).map (·.map id .scripted)
    | .bare b => (Block.start b).map (·.map id .bare)
  stop
    | .builtin b => (Block.stop b).map .builtin
    | .scripted b => (Block.stop b).map .scripted
    | .bare b => (Block.stop b).map .bare
  pause
    | .builtin b => (Block.pause b).map .builtin
    | .scripted b => (Block.pause b).map .scripted
    | .bare b => (Block.pause b).map .bare
  resume
    | .builtin b => (Block.resume b).map .builtin
    | .scripted b => (Block.resume b).map .scripted
    | .bare b => (Block.resume b).map .bare
  work
    | .builtin b => (Block.work b).map (·.map id .builtin)
    | .scripted b => (Block.work b).map (·.map id .scripted)
    | .bare b => (Block.work b).map (·.map id .bare)

end Dataflow
