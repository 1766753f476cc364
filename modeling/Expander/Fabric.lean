import Expander.Interconnect
import Expander.Stage

/-!
Stages and the links between them.

A fabric grows by `add`, and its links by `connect` and `attachToHost`; each side of a stage has
one peer at most. A fabric is complete when every stage that forwards requests has a stage to
forward them to.
-/

set_option autoImplicit false

namespace Expander

/-- The peer in front of a stage. -/
inductive Peer where
  | host
  | component (id : ComponentId)
deriving DecidableEq, Repr

structure Node where
  stage : Stage
  hostSide : Option Peer := none
  memorySide : Option ComponentId := none

/-- Stages, the links between them, and the interconnect to the host. -/
structure Fabric where
  nodes : List Node := []
  interconnect : Interconnect

namespace Fabric

/-- Adds a stage without links, and gives its identifier. -/
def add (f : Fabric) (stage : Stage) : ComponentId × Fabric :=
  (f.nodes.length, { f with nodes := f.nodes ++ [{ stage }] })

def node (f : Fabric) (id : ComponentId) : Except SimError Node :=
  match f.nodes[id]? with
  | some node => .ok node
  | none => .error (.unknownComponent id)

def stage? (f : Fabric) (id : ComponentId) : Option Stage := f.nodes[id]?.map (·.stage)

/-- The name of a component; empty when there is none. -/
def nameOf (f : Fabric) (id : ComponentId) : String := ((f.stage? id).map Stage.name).getD ""

def hostSide? (f : Fabric) (id : ComponentId) : Option Peer := f.nodes[id]?.bind (·.hostSide)

def memorySide? (f : Fabric) (id : ComponentId) : Option ComponentId :=
  f.nodes[id]?.bind (·.memorySide)

def setStage (f : Fabric) (id : ComponentId) (stage : Stage) : Fabric :=
  { f with nodes := f.nodes.modify id fun node => { node with stage } }

/-- Links the request side of `up` to the response side of `down`. -/
def connect (f : Fabric) (up down : ComponentId) : Except SimError Fabric := do
  let upper ← f.node up
  let lower ← f.node down
  if upper.memorySide.isSome then
    .error (.config (.alreadyConnected upper.stage.name .request))
  else if lower.hostSide.isSome then
    .error (.config (.alreadyConnected lower.stage.name .response))
  else
    .ok { f with
      nodes := (f.nodes.modify up fun node => { node with memorySide := some down }).modify down
        fun node => { node with hostSide := some (.component up) } }

/-- Adds the routes of a component one after the other, up to the first that is refused. -/
def addRoutes (target : ComponentId) (name : String) :
    List AddressRange → Interconnect → Except ConfigError Unit × Interconnect
  | [], n => (.ok (), n)
  | range :: rest, n =>
    match n.addRoute ⟨range, target, name⟩ with
    | .error e => (.error e, n)
    | .ok n' => addRoutes target name rest n'

/-- Makes a component reachable from the host in the given ranges. When a range is refused, the
component is not attached, but the ranges before it stay routed. -/
def attachToHost (f : Fabric) (target : ComponentId) (ranges : List AddressRange) :
    Except SimError Unit × Fabric :=
  match f.node target with
  | .error e => (.error e, f)
  | .ok node =>
    if node.hostSide.isSome then
      (.error (.config (.alreadyConnected node.stage.name .response)), f)
    else
      match addRoutes target node.stage.name ranges f.interconnect with
      | (.error e, interconnect) => (.error (.config e), { f with interconnect })
      | (.ok (), interconnect) =>
        (.ok (),
          { nodes := f.nodes.modify target fun node => { node with hostSide := some .host }
            interconnect })

def attached (f : Fabric) (target : ComponentId) (ranges : List AddressRange) :
    Except SimError Fabric :=
  match f.attachToHost target ranges with
  | (.ok (), attached) => .ok attached
  | (.error e, _) => .error e

def isOpen (node : Node) : Bool := node.stage.forwardsRequests && node.memorySide.isNone

/-- Passes when every stage that forwards requests has a stage behind it. -/
def complete (f : Fabric) : Except ConfigError Unit :=
  match f.nodes.find? isOpen with
  | some node => .error (.missingConnection node.stage.name)
  | none => .ok ()

/-- A measure of the work that all stages have in hand. -/
def workload (f : Fabric) : Nat := total (f.nodes.map fun node => node.stage.workload)

end Fabric

end Expander
