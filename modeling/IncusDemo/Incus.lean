/-
  IncusDemo.Incus

  The Incus daemon as the server sees it through the client library: a set of
  instances by project and name, and the calls made on them.  A call that
  starts an operation only submits it; the effect is that of the `Wait` on the
  operation.  Any call and any `Wait` may fail, and then changes nothing (in
  particular a create or copy that reports failure leaves no instance).
-/

import IncusDemo.Go.Std
import Mathlib.Data.List.Basic

namespace IncusDemo

open Go

/-- `incus.InstanceServer`: a connection, with the project and target it was given. -/
structure InstanceServer where
  project : String
  target : String
  deriving DecidableEq

/-- A string map of the API, as its entries. -/
abbrev StringMap := List (String × String)

namespace StringMap

/-- `m[k] = v`. -/
def set (m : StringMap) (k v : String) : StringMap := m.filter (fun e => e.1 != k) ++ [(k, v)]

end StringMap

/-- Devices by name. -/
abbrev Devices := List (String × StringMap)

namespace Devices

def set (m : Devices) (k : String) (v : StringMap) : Devices :=
  m.filter (fun e => e.1 != k) ++ [(k, v)]

def get? (m : Devices) (k : String) : Option StringMap := (m.find? fun e => e.1 == k).map Prod.snd

end Devices

/-- An address of a network interface in `api.InstanceState`. -/
structure Address where
  family : String
  address : String
  scope : String
  deriving DecidableEq

/-- `InstanceState.Network`, in the order a Go loop over the map visits it. -/
abbrev Network := List (String × List Address)

/-- An instance.  `addresses` are the global addresses Incus assigned to it. -/
structure Instance where
  project : String
  name : String
  instanceType : String
  status : String
  config : StringMap
  devices : Devices
  expandedDevices : Devices
  profiles : List String
  addresses : List String
  deriving DecidableEq

/-- `api.InstancesPost` with its `InstanceSource`. -/
structure InstancesPost where
  name : String
  sourceType : String
  sourceAlias : String
  sourceServer : String
  sourceProtocol : String
  instanceType : String
  profiles : List String
  deriving DecidableEq

/-- `ct.Writable()`, as far as the server changes it. -/
structure InstancePut where
  config : StringMap
  devices : Devices
  deriving DecidableEq

/-- `api.InstanceExecPost`, for a console. -/
structure InstanceExecPost where
  command : List String
  waitForWS : Bool
  interactive : Bool
  environment : StringMap
  width : Int
  height : Int
  deriving DecidableEq

/-- Calls on an `incus.InstanceServer`. -/
inductive Call where
  | getInstance (name : String)
  | copyInstance (source : Instance) (name : String) (instanceOnly : Bool)
  | createInstance (req : InstancesPost)
  | updateInstance (name : String) (put : InstancePut)
  | updateInstanceState (name action : String) (force : Bool)
  | getInstanceState (name : String)
  | execInstance (name : String) (command : List String)
  /-- `ExecInstance` for a console. -/
  | execConsole (name : String) (req : InstanceExecPost)
  | deleteInstance (name : String)
  | getInstanceNames
  deriving DecidableEq

/-- What a call answers when it does not fail; a call that starts an operation answers `()`. -/
abbrev Call.Res : Call → Type
  | .getInstance _ => Instance
  | .getInstanceState _ => Network
  | .getInstanceNames => List String
  | .copyInstance .. | .createInstance _ | .updateInstance .. | .updateInstanceState ..
  | .execInstance .. | .execConsole .. | .deleteInstance _ => Unit

/-- The instances that exist. -/
abbrev Instances := List Instance

namespace Instances

/-- `i` is the instance `name` of the project of `d`. -/
def isAt (d : InstanceServer) (name : String) (i : Instance) : Bool :=
  i.project == d.project && i.name == name

def get? (is : Instances) (d : InstanceServer) (name : String) : Option Instance :=
  is.find? (isAt d name)

/-- `GetInstanceNames`: the instances of the connection's project. -/
def names (is : Instances) (d : InstanceServer) : List String :=
  (is.filter fun i => i.project == d.project).map Instance.name

/-- Change the instance `name`. -/
def modify (is : Instances) (d : InstanceServer) (name : String) (f : Instance → Instance) :
    Instances :=
  is.map fun i => if isAt d name i then f i else i

/-- Remove the instance `name`. -/
def remove (is : Instances) (d : InstanceServer) (name : String) : Instances :=
  is.filter fun i => ! isAt d name i

/-- Instance `i` may report the network state `net`: global addresses are those assigned to it. -/
def reports (i : Instance) (net : Network) : Bool :=
  net.all fun e => e.2.all fun a => a.scope != "global" || i.addresses.contains a.address

end Instances

/-- What Incus decides about an instance it makes: the addresses it assigns and the
    devices its profiles bring. -/
structure Assigned where
  addresses : List String
  devices : Devices
  deriving DecidableEq

/-- The instance that a create request makes. -/
def InstancesPost.make (req : InstancesPost) (d : InstanceServer) (a : Assigned) : Instance where
  project := d.project
  name := req.name
  instanceType := req.instanceType
  status := "Stopped"
  config := []
  devices := []
  expandedDevices := a.devices
  profiles := req.profiles
  addresses := a.addresses

/-- The instance that a copy of `source` makes. -/
def Instance.copy (source : Instance) (d : InstanceServer) (name : String) (a : Assigned) :
    Instance :=
  { source with project := d.project, name := name, status := "Stopped"
                expandedDevices := a.devices, addresses := a.addresses }

/-- The effect of the operation a call started, once it succeeds; `none` when Incus
    refuses it. -/
def Call.complete (c : Call) (d : InstanceServer) (a : Assigned) (is : Instances) :
    Option Instances :=
  match c with
  | .copyInstance source name _ =>
    if (is.get? d name).isSome then none else some (is ++ [source.copy d name a])
  | .createInstance req =>
    if (is.get? d req.name).isSome then none else some (is ++ [req.make d a])
  | .updateInstance name put =>
    if (is.get? d name).isSome then
      some (is.modify d name fun i => { i with config := put.config, devices := put.devices })
    else none
  | .updateInstanceState name action _ =>
    if (is.get? d name).isSome then
      some (is.modify d name fun i =>
        { i with status := if action = "start" then "Running" else "Stopped" })
    else none
  | .deleteInstance name => if (is.get? d name).isSome then some (is.remove d name) else none
  | .getInstance _ | .getInstanceState _ | .execInstance .. | .execConsole .. | .getInstanceNames =>
    some is

theorem Instances.mem_modify {is : Instances} {d : InstanceServer} {name : String}
    {f : Instance → Instance} {i : Instance} :
    i ∈ is.modify d name f ↔ ∃ j ∈ is, i = if isAt d name j then f j else j := by
  simp only [Instances.modify, List.mem_map, eq_comm]

theorem Instances.mem_remove {is : Instances} {d : InstanceServer} {name : String} {i : Instance} :
    i ∈ is.remove d name ↔ i ∈ is ∧ isAt d name i = false := by
  simp [Instances.remove]

theorem Instances.isAt_iff {d : InstanceServer} {name : String} {i : Instance} :
    isAt d name i = true ↔ i.project = d.project ∧ i.name = name := by
  simp [isAt]

end IncusDemo
