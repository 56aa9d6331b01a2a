import SharedTree.Tree.Delivery

/-!
# Probes

A probe is an observer that records every update it is given and then does one fixed thing, which may be
to change the tree in the middle of the delivery. Probes are kept by name; one that is no longer kept is
gone, unless another existing probe is to hand its registration over to it. The tree itself keeps no
observer alive.
-/

namespace SharedTree

/-- What a probe does when it has recorded an update. Whether what it does fails is ignored. -/
inductive ProbeMode where
  /-- Nothing. -/
  | record
  /-- Removes the registration of its subscriber from the value. -/
  | leave
  /-- Once in its life, writes the value again with the byte `ee` added. -/
  | echo
  /-- Makes another probe watch the value, and counts as not reached. -/
  | handOver (other : Option Observer)
  /-- Deletes the property at a path. -/
  | delete (path : String)

/-- An observer with a fixed behaviour. -/
structure Probe where
  subscriber : SessionId
  mode : ProbeMode
  /-- A switched-off probe records nothing and counts as not reached. -/
  switchedOn : Bool := true
  /-- Whether it has yet to do what it does only once. -/
  armed : Bool := true
  /-- What it has recorded, oldest first. -/
  heard : List ValueUpdate := []

/-- The probes that were ever made, and the names by which some of them are kept. -/
structure Probes where
  made : Table Observer Probe := .empty
  kept : Table String Observer := .empty

instance : Inhabited Probes := ⟨{}⟩

namespace Probes

/-- A probe and those it keeps by being about to hand over to them. The count bounds the chain. -/
def chain (probes : Probes) : Nat → Observer → List Observer
  | 0, _ => []
  | bound + 1, observer =>
    observer ::
      match probes.made.find? observer with
      | some { mode := .handOver (some other), .. } => probes.chain bound other
      | _ => []

/-- Whether a probe still exists. -/
def exists? (probes : Probes) (observer : Observer) : Bool :=
  probes.kept.values.any fun root => (probes.chain probes.made.size root).contains observer

/-- Makes a probe and keeps it under a name, in place of the one kept under that name before. -/
def make (probes : Probes) (name : String) (subscriber : SessionId) (mode : ProbeMode) : Probes :=
  let observer := probes.made.size
  { made := probes.made.insert observer { subscriber, mode }
    kept := probes.kept.insert name observer }

/-- No longer keeps the probe with a name. -/
def drop (probes : Probes) (name : String) : Probes :=
  { probes with kept := probes.kept.erase name }

/-- The probe kept under a name. -/
def named? (probes : Probes) (name : String) : Option Probe :=
  (probes.kept.find? name).bind probes.made.find?

/-- Changes the probe kept under a name. -/
def modifyNamed (probes : Probes) (name : String) (change : Probe → Probe) : Probes :=
  match probes.kept.find? name with
  | none => probes
  | some observer => { probes with made := probes.made.modify observer change }

/-- What being called does to the tree and to the probes. The count bounds how deep writes made by
probes may nest; each probe writes once at most. -/
def react (order : VisitOrder) : Nat → Reaction Probes
  | bound, observer, update, (tree, probes) =>
    match if probes.exists? observer then probes.made.find? observer else none with
    | none => (false, tree, probes)
    | some probe =>
      if !probe.switchedOn then (false, tree, probes)
      else
        let probes :=
          { probes with
            made := probes.made.modify observer fun probe =>
              { probe with heard := probe.heard ++ [update] } }
        match probe.mode with
        | .record => (true, tree, probes)
        | .leave => (true, (tree.unsubscribe update.uuid probe.subscriber).2, probes)
        | .delete path => (true, (tree.delete path).2, probes)
        | .handOver other =>
          let successor := other.bind fun other =>
            (probes.made.find? other).map fun probe => (probe.subscriber, other)
          match successor with
          | none => (false, tree, probes)
          | some (subscriber, other) =>
            (false, (tree.subscribe update.uuid subscriber other).2, probes)
        | .echo =>
          match bound, probe.armed with
          | bound + 1, true =>
            let disarmed :=
              { probes with
                made := probes.made.modify observer fun probe => { probe with armed := false } }
            (true, (Tree.setValue (react order bound) order update.uuid (update.data ++ [0xee])
              (tree, disarmed)).2)
          | _, _ => (true, tree, probes)

/-- What being called does, with room for every probe to write. -/
def reaction (probes : Probes) : Reaction Probes := react .stored (probes.made.size + 1)

end Probes

end SharedTree
